/-
# `AiosKernel.Autonomy.Ledger` — the queue, the counters and the log over a whole run

Two levels of the autonomy plane.  Above, a `Ledger`: the queue is a list of at most
`AUTONOMY_ACTION_CAP` actions, first in first out, the log a list without a bound, the
counters natural numbers; an `Effect` is one entry in it.  Below, the rings and the
64-bit counters of the source (`Shows`).

    every call is a sequence of ledger steps with the effects it reports   (`execTraced_refines`)
    a ledger conserves actions and takes them in order                     (`Ledger.Steps.approved_eq`)

so the rings and counters of every run do.

The effects of a call are read off its arguments and its reply, never off the rings
it leaves.
-/
import AiosKernel.Autonomy.Runs
import AiosKernel.Sched.Lifecycle
import AiosKernel.Lib.RingLog

namespace AiosKernel.Autonomy

open Word Sched SchedState Outcome List

/-! ## Effects -/

inductive Effect where
  | approved (a : PolicyAction)
  | refused (a : PolicyAction) (reason : Reason)
  | committed (a : PolicyAction) (nowNs : Nat)
  | failed (a : PolicyAction)
  | rolledBack (a : PolicyAction) (nowNs : Nat)
  deriving DecidableEq, Repr

def Effect.event : Effect → AutonomyEvent
  | .approved a => ⟨a.tsNs, a.actionId, a.targetSubsys, .approved, .ok⟩
  | .refused a reason => ⟨a.tsNs, a.actionId, a.targetSubsys, .rejected, reason⟩
  | .committed a nowNs => ⟨nowNs, a.actionId, a.targetSubsys, .committed, .ok⟩
  | .failed a => ⟨a.tsNs, a.actionId, a.targetSubsys, .rejected, failReason a⟩
  | .rolledBack a nowNs => ⟨nowNs, a.actionId, a.targetSubsys, .rolledBack, .ok⟩

/-- Why a proposal is turned down, if it is: the first check that fails. -/
def verdict (health : Health.Summary) (a : PolicyAction) (s : State) : Option Reason :=
  if AUTONOMY_ACTION_CAP ≤ s.actionQueue.count then some .queueFull
  else if !riskLevelValid a.riskLevel then some .badRisk
  else if !targetValid a.targetSubsys then some .badTarget
  else if !targetSupported a.targetSubsys then some .unsupportedTarget
  else if !deltaWithinBounds a then some .badDelta
  else if !riskAllowed health s.stats a.riskLevel then some .modeBlocked
  else none

def PolicyAction.asApproved (a : PolicyAction) (nowNs : Nat) : PolicyAction :=
  { a with tsNs := nowNs, state := .approved, reason := .ok }

def PolicyAction.asCommitted (a : PolicyAction) (nowNs : Nat) : PolicyAction :=
  { a with state := .committed, reason := .ok, tsNs := nowNs }

def proposeEffects (health : Health.Summary) (nowNs : Nat) (action : Option PolicyAction)
    (s : State) : List Effect :=
  match action with
  | none => []
  | some a =>
    match verdict health a s with
    | some reason => [.refused { a with tsNs := nowNs } reason]
    | none => [.approved (a.asApproved nowNs)]

/-- A commit takes the front of the queue; its reply says what became of it. -/
def commitEffects (env : CommitEnv) (s : State) (reply : AiosStatus × Option PolicyEval) :
    List Effect :=
  if s.actionQueue.count = 0 then []
  else if reply.1 ≠ .ok then [.failed s.actionQueue.front]
  else if reply.2.any PolicyEval.rollbackTriggered then
    [.committed s.actionQueue.front env.nowNs,
      .rolledBack (s.actionQueue.front.asCommitted env.nowNs) env.rollbackNs]
  else [.committed s.actionQueue.front env.nowNs]

section

variable {env : CommitEnv} {s : State} {status : AiosStatus} {eval : Option PolicyEval}

section

variable (hpos : 0 < s.actionQueue.count)
include hpos

theorem commitEffects_failed (hst : status ≠ .ok) :
    commitEffects env s (status, eval) = [.failed s.actionQueue.front] := by
  rw [commitEffects, if_neg hpos.ne', if_pos hst]

theorem commitEffects_kept
    (heval : eval.any PolicyEval.rollbackTriggered = false) :
    commitEffects env s (.ok, eval) = [.committed s.actionQueue.front env.nowNs] := by
  rw [commitEffects, if_neg hpos.ne', if_neg (fun hne => hne rfl), if_neg (by simp [heval])]

theorem commitEffects_takenBack
    (heval : eval.any PolicyEval.rollbackTriggered = true) :
    commitEffects env s (.ok, eval) = [.committed s.actionQueue.front env.nowNs,
      .rolledBack (s.actionQueue.front.asCommitted env.nowNs) env.rollbackNs] := by
  rw [commitEffects, if_neg hpos.ne', if_neg (fun hne => hne rfl), if_pos heval]

end

end

def rollbackEffects (nowNs : Nat) (s : State) (status : AiosStatus) : List Effect :=
  if status = .ok then [.rolledBack s.lastCommitted nowNs] else []

/-- The effects of a call that returns, and the world after it. -/
def execTraced (fuel : Nat) (clk : Nat → Nat) (c : Call) (w : World) :
    Outcome (List Effect × World) :=
  match c with
  | .propose action nowNs =>
    let health := Health.getSummary w.health
    let (_, s) := actionPropose health nowNs action w.autonomy
    .done (proposeEffects health nowNs action w.autonomy, { w with autonomy := s })
  | .commitNext hasEval env => do
    let (reply, s, sched) ← actionCommitNext fuel clk env hasEval w.autonomy w.sched
    .done (commitEffects env w.autonomy reply, { w with autonomy := s, sched := sched })
  | .rollbackLast nowNs => do
    let (status, s, sched) ← actionRollbackLast fuel clk nowNs w.autonomy w.sched
    .done (rollbackEffects nowNs w.autonomy status, { w with autonomy := s, sched := sched })
  | c => do
    let w ← exec fuel clk c w
    .done ([], w)

variable {clk : Nat → Nat} {ok : Call → Prop}

variable {fuel : Nat} {c : Call} {h : List Entry} {w : World}

/-- It is the world that the call leaves. -/
theorem exec_of_execTraced {w w' : World} {es : List Effect}
    (h : execTraced fuel clk c w = .done (es, w')) : exec fuel clk c w = .done w' := by
  cases c with
  | propose action nowNs =>
    cases h
    rfl
  | commitNext hasEval env =>
    obtain ⟨⟨reply, s, sched⟩, hcall, -, rfl⟩ := of_map₂ h
    exact bind_eq_done.mpr ⟨_, hcall, rfl⟩
  | rollbackLast nowNs =>
    obtain ⟨⟨status, s, sched⟩, hcall, -, rfl⟩ := of_map₂ h
    exact bind_eq_done.mpr ⟨_, hcall, rfl⟩
  | _ =>
    obtain ⟨w₁, hcall, -, rfl⟩ := of_map₂ h
    exact hcall

/-! ## Ledgers -/

/-- What the autonomy plane is for: a bounded queue, a log and the counts. -/
structure Ledger where
  queue : List PolicyAction
  log : List AutonomyEvent
  proposed : Nat
  approved : Nat
  committed : Nat
  rejected : Nat
  rollbacks : Nat

def Ledger.empty : Ledger := ⟨[], [], 0, 0, 0, 0, 0⟩

/-- One entry: actions enter the queue at its end while there is room, and leave it at its
front. -/
inductive Ledger.Step : Ledger → Effect → Ledger → Prop where
  | approved {l : Ledger} (a : PolicyAction) : l.queue.length < AUTONOMY_ACTION_CAP →
      Step l (.approved a) { l with
        queue := l.queue ++ [a], log := l.log ++ [(Effect.approved a).event]
        proposed := l.proposed + 1, approved := l.approved + 1 }
  | refused {l : Ledger} (a : PolicyAction) (reason : Reason) :
      Step l (.refused a reason) { l with
        log := l.log ++ [(Effect.refused a reason).event]
        proposed := l.proposed + 1, rejected := l.rejected + 1 }
  | committed {l : Ledger} {rest : List PolicyAction} (a : PolicyAction) (nowNs : Nat) :
      l.queue = a :: rest → Step l (.committed a nowNs) { l with
        queue := rest, log := l.log ++ [(Effect.committed a nowNs).event]
        committed := l.committed + 1 }
  | failed {l : Ledger} {rest : List PolicyAction} (a : PolicyAction) :
      l.queue = a :: rest → Step l (.failed a) { l with
        queue := rest, log := l.log ++ [(Effect.failed a).event]
        rejected := l.rejected + 1 }
  | rolledBack {l : Ledger} (a : PolicyAction) (nowNs : Nat) :
      Step l (.rolledBack a nowNs) { l with
        log := l.log ++ [(Effect.rolledBack a nowNs).event], rollbacks := l.rollbacks + 1 }

inductive Ledger.Steps (l : Ledger) : List Effect → Ledger → Prop where
  | nil : Steps l [] l
  | snoc {l' l'' : Ledger} {es : List Effect} {e : Effect} :
      Steps l es l' → Step l' e l'' → Steps l (es ++ [e]) l''

/-- The actions that were approved, in the order of approval. -/
def approvedOf (es : List Effect) : List PolicyAction := es.filterMap fun
  | .approved a => some a
  | _ => none

/-- The actions that commits took, in the order of the commits. -/
def takenOf (es : List Effect) : List PolicyAction := es.filterMap fun
  | .committed a _ => some a
  | .failed a => some a
  | _ => none

def proposalsOf (es : List Effect) : Nat := es.countP fun
  | .approved _ => true
  | .refused .. => true
  | _ => false

namespace Ledger.Steps

variable {l l' l'' : Ledger} {es es' : List Effect}

theorem trans (h : Steps l es l') (h' : Steps l' es' l'') : Steps l (es ++ es') l'' := by
  induction h' with
  | nil => rwa [append_nil]
  | snoc _ hstep ih =>
    rw [← append_assoc]
    exact .snoc ih hstep

theorem single {e : Effect} (h : Step l e l') : Steps l [e] l' := .snoc .nil h

theorem log_eq (h : Steps Ledger.empty es l) : l.log = es.map Effect.event := by
  induction h with
  | nil => rfl
  | snoc _ hstep ih =>
    rw [map_append, ← ih]
    cases hstep <;> rfl

/-- **First in, first out**: what was approved is what was taken, followed by what waits. -/
theorem approved_eq (h : Steps Ledger.empty es l) : approvedOf es = takenOf es ++ l.queue := by
  induction h with
  | nil => rfl
  | snoc _ hstep ih =>
    rw [approvedOf, takenOf, filterMap_append, filterMap_append, ← approvedOf,
      ← takenOf, ih]
    cases hstep with
    | approved a _ | refused a reason | rolledBack a nowNs => simp
    | committed a nowNs hqueue | failed a hqueue => simp [hqueue]

theorem proposed_eq (h : Steps Ledger.empty es l) :
    l.proposed = l.committed + l.rejected + l.queue.length := by
  induction h with
  | nil => rfl
  | snoc _ hstep ih =>
    cases hstep with
    | approved a _ => simp only [length_append, length_singleton]; omega
    | refused a reason => simp only; omega
    | committed a nowNs hqueue | failed a hqueue =>
      simp only [hqueue, length_cons] at ih ⊢; omega
    | rolledBack a nowNs => exact ih

theorem proposals_eq (h : Steps Ledger.empty es l) : l.proposed = proposalsOf es := by
  induction h with
  | nil => rfl
  | snoc _ hstep ih =>
    rw [proposalsOf, countP_append, ← proposalsOf, ← ih]
    cases hstep <;> simp

end Ledger.Steps

/-! ## Proposals -/

/-- A proposal is counted before it is checked. -/
def State.countProposed (s : State) : State :=
  s.setStats fun st => { st with actionsProposed := u64 (st.actionsProposed + 1) }

/-- A proposal that is turned down. -/
def State.refuse (s : State) (a : PolicyAction) (nowNs : Nat) (reason : Reason) : State :=
  reject { a with tsNs := nowNs, state := .proposed, reason := .ok } reason s.countProposed

def State.approve (s : State) (a : PolicyAction) (nowNs : Nat)
    (hroom : s.actionQueue.count < AUTONOMY_ACTION_CAP) : State :=
  logEvent (a.asApproved nowNs) (State.setStats
    { s.countProposed with actionQueue := s.actionQueue.push (a.asApproved nowNs) hroom }
    fun st => { st with
      actionsApproved := u64 (st.actionsApproved + 1)
      actionQueueDepth := s.actionQueue.count + 1 })

/-- The reply to a proposal is the one its verdict asks for. -/
def Answers (a : PolicyAction) (nowNs : Nat) (s : State) (v : Option Reason)
    (r : AiosStatus × State) : Prop :=
  (∃ reason status, v = some reason ∧ status ≠ AiosStatus.ok ∧
    r = (status, s.refuse a nowNs reason)) ∨
  v = none ∧ ∃ hroom, r = (.ok, s.approve a nowNs hroom)

theorem Answers.check {a : PolicyAction} {nowNs : Nat} {s : State} {v : Option Reason}
    {r : AiosStatus × State} {b : Bool} {reason : Reason} {status : AiosStatus}
    (hst : status ≠ .ok) (h : Answers a nowNs s v r) :
    Answers a nowNs s (if b then some reason else v)
      (if b then (status, s.refuse a nowNs reason) else r) := by
  cases b with
  | true => exact .inl ⟨reason, status, rfl, hst, rfl⟩
  | false => exact h

theorem actionPropose_cases (health : Health.Summary) (nowNs : Nat) (a : PolicyAction) (s : State) :
    Answers a nowNs s (verdict health a s) (actionPropose health nowNs (some a) s) := by
  by_cases hfull : AUTONOMY_ACTION_CAP ≤ s.actionQueue.count
  · exact .inl ⟨_, _, if_pos hfull, by decide, dif_pos hfull⟩
  · rw [verdict, if_neg hfull, show actionPropose health nowNs (some a) s = _ from dif_neg hfull]
    iterate 5 refine Answers.check (by decide) ?_
    exact .inr ⟨rfl, Nat.lt_of_not_le hfull, rfl⟩

/-! ## Commits and rollbacks -/

/-- The action names task `i`, and its priority is moved. -/
structure Applies (a : PolicyAction) (i : Nat) (sched sched' : SchedState) : Prop where
  target : a.targetSubsys = AUTONOMY_TARGET_SCHED
  found : sched.findTask a.actionId = some i
  written : Reprioritised i (clampPriority (priority sched i + a.deltaValue)) sched sched'

/-- The queue without its front. -/
def State.take (s : State) (hpos : 0 < s.actionQueue.count) : State :=
  State.setStats { s with actionQueue := s.actionQueue.pop hpos }
    fun st => { st with actionQueueDepth := s.actionQueue.count - 1 }

/-- An action is applied to a task of priority `prev`, and recorded. -/
def State.commit (s : State) (a : PolicyAction) (prev : Int) (nowNs : Nat) : State :=
  logEvent (a.asCommitted nowNs) (State.setStats
    { s with
      rollbackCtx := ⟨true, a.targetSubsys, a.actionId, prev⟩
      lastCommitted := a.asCommitted nowNs
      hasLastCommitted := true }
    fun st => { st with actionsCommitted := u64 (st.actionsCommitted + 1) })

/-- The last commit is recorded as taken back. -/
def State.rollBack (s : State) (nowNs : Nat) : State :=
  let last := { s.lastCommitted with state := .rolledBack, reason := .ok, tsNs := nowNs }
  let s := logEvent last (State.setStats { s with lastCommitted := last }
    fun st => { st with rollbacks := u64 (st.rollbacks + 1) })
  { s with rollbackCtx := { s.rollbackCtx with valid := false }, hasLastCommitted := false }

section

variable {s s' : State} {sched sched' : SchedState} {fuel : Nat} {clk : Nat → Nat}
  {status : AiosStatus}

theorem applyAction_cases {a : PolicyAction}
    (h : applyAction fuel clk a s sched = .done (status, s', sched')) :
    status ≠ .ok ∧ s' = s ∧ sched' = sched ∨
      ∃ i, status = .ok ∧ Applies a i sched sched' ∧
        s' = { s with rollbackCtx := ⟨true, a.targetSubsys, a.actionId, priority sched i⟩ } := by
  unfold applyAction at h
  split at h
  · rename_i htarget
    unfold applySchedAction aiTaskGetPriority at h
    cases hfind : sched.findTask a.actionId with
    | none =>
      simp only [hfind] at h
      cases h
      exact .inl ⟨by decide, rfl, rfl⟩
    | some i =>
      simp only [hfind] at h
      obtain ⟨⟨status', sched₁⟩, hset, hrest⟩ := bind_eq_done.mp h
      cases hrest
      rcases aiTaskSetPriority_cases hset with ⟨hnone, -⟩ | ⟨j, hj, rfl, hwrite⟩
      · rw [hfind] at hnone
        cases hnone
      · obtain rfl : i = j := Option.some.inj (hfind.symm.trans hj)
        exact .inr ⟨i, rfl, ⟨htarget, hfind, hwrite⟩, rfl⟩
  · cases h
    exact .inl ⟨by decide, rfl, rfl⟩

theorem actionRollbackLast_cases {nowNs : Nat}
    (h : actionRollbackLast fuel clk nowNs s sched = .done (status, s', sched')) :
    status ≠ .ok ∧ s' = s ∧ sched' = sched ∨
      ∃ i, status = .ok ∧ s.hasLastCommitted = true ∧ s.rollbackCtx.valid = true ∧
        sched.findTask s.rollbackCtx.actionId = some i ∧
        Reprioritised i s.rollbackCtx.prevPriority sched sched' ∧ s' = s.rollBack nowNs := by
  unfold actionRollbackLast at h
  split at h
  · cases h
    exact .inl ⟨by decide, rfl, rfl⟩
  rename_i hvalid
  split at h
  · cases h
    exact .inl ⟨by decide, rfl, rfl⟩
  obtain ⟨⟨status', sched₁⟩, hset, hrest⟩ := bind_eq_done.mp h
  rcases aiTaskSetPriority_cases hset with ⟨-, rfl, rfl⟩ | ⟨i, hi, rfl, hwrite⟩
  · cases hrest
    exact .inl ⟨by decide, rfl, rfl⟩
  · cases hrest
    simp only [Bool.or_eq_true, Bool.not_eq_true', not_or, Bool.not_eq_false] at hvalid
    exact .inr ⟨i, rfl, hvalid.1, hvalid.2, hi, hwrite, rfl⟩

end

/-- Everything that `autonomy_action_commit_next` can do. -/
inductive Commits (env : CommitEnv) (s : State) (sched : SchedState) :
    AiosStatus × Option PolicyEval → State → SchedState → Prop where
  | idle : s.actionQueue.count = 0 → Commits env s sched (.errInval, none) s sched
  | failed {status : AiosStatus} (hpos : 0 < s.actionQueue.count) : status ≠ .ok →
      Commits env s sched (status, none)
        (reject s.actionQueue.front (failReason s.actionQueue.front) (s.take hpos)) sched
  | kept {eval : Option PolicyEval} {i : Nat} {sched' : SchedState}
      (hpos : 0 < s.actionQueue.count) : Applies s.actionQueue.front i sched sched' →
      eval.any PolicyEval.rollbackTriggered = false →
      Commits env s sched (.ok, eval)
        ((s.take hpos).commit s.actionQueue.front (priority sched i) env.nowNs) sched'
  | takenBack {eval : Option PolicyEval} {i : Nat} {sched₁ sched' : SchedState}
      (hpos : 0 < s.actionQueue.count) : Applies s.actionQueue.front i sched sched₁ →
      eval.any PolicyEval.rollbackTriggered = true →
      u64 (computeEvalScore (collectLiveTelemetry env.fragAfter sched₁) + 5000) <
        computeEvalScore (collectLiveTelemetry env.fragBefore sched) →
      Reprioritised i (priority sched i) sched₁ sched' →
      Commits env s sched (.ok, eval) (((s.take hpos).commit s.actionQueue.front
        (priority sched i) env.nowNs).rollBack env.rollbackNs) sched'

theorem actionCommitNext_cases {env : CommitEnv} {hasEval : Bool} {s s' : State}
    {sched sched' : SchedState} {reply : AiosStatus × Option PolicyEval}
    (h : actionCommitNext fuel clk env hasEval s sched = .done (reply, s', sched')) :
    Commits env s sched reply s' sched' := by
  unfold actionCommitNext at h
  split at h
  · rename_i hempty
    cases h
    exact .idle hempty
  rename_i hempty
  have hpos := Nat.pos_of_ne_zero hempty
  obtain ⟨⟨status, s₁, sched₁⟩, happly, hrest⟩ := bind_eq_done.mp h
  dsimp only at hrest
  rcases applyAction_cases happly with ⟨hst, rfl, rfl⟩ | ⟨i, rfl, happlies, rfl⟩
  · rw [if_pos hst] at hrest
    cases hrest
    exact .failed hpos hst
  rw [if_neg (fun hne => hne rfl)] at hrest
  unfold recordCommit at hrest
  dsimp only at hrest
  split at hrest
  · cases hrest
    exact .kept hpos happlies rfl
  split at hrest
  · rename_i hworse
    obtain ⟨⟨status', s₂, sched₂⟩, hrollback, hlast⟩ := bind_eq_done.mp hrest
    cases hlast
    rcases actionRollbackLast_cases hrollback with ⟨hst, rfl, rfl⟩ | ⟨j, rfl, -, -, hj, hback, rfl⟩
    · exact .kept hpos happlies (by simpa using hst)
    · -- the context is that of this commit, and the task is found again
      rw [happlies.written.findTask_eq] at hj
      obtain rfl : i = j := Option.some.inj (happlies.found.symm.trans hj)
      exact .takenBack hpos happlies rfl hworse hback
  · cases hrest
    exact .kept hpos happlies rfl

/-! ## The code refines the ledger -/

def State.ring (s : State) : RingLog AutonomyEvent := ⟨s.eventLog, s.eventHead, s.eventCount⟩

/-- The logged events that are still there, the oldest first. -/
def State.events (s : State) : List AutonomyEvent := s.ring.entries AUTONOMY_EVENT_CAP

/-- The rings hold the queue and the end of the log, the counters count modulo `2 ^ 64`. -/
structure Shows (l : Ledger) (s : State) : Prop where
  queue : s.actionQueue.contents = l.queue
  log : s.ring.Keeps AUTONOMY_EVENT_CAP l.log
  proposed : s.stats.actionsProposed = u64 l.proposed
  approved : s.stats.actionsApproved = u64 l.approved
  committed : s.stats.actionsCommitted = u64 l.committed
  rejected : s.stats.actionsRejected = u64 l.rejected
  rollbacks : s.stats.rollbacks = u64 l.rollbacks
  depth : s.stats.actionQueueDepth = s.actionQueue.count

theorem u64_succ {m n : Nat} (h : m = u64 n) : u64 (m + 1) = u64 (n + 1) := by
  rw [h, u64, u64, Nat.mod_add_mod]
  rfl

theorem shows_init : Shows Ledger.empty init :=
  ⟨rfl, RingLog.Keeps.nil rfl rfl, rfl, rfl, rfl, rfl, rfl, rfl⟩

section

variable {l : Ledger} {s : State}

theorem Shows.refuse (h : Shows l s) (a : PolicyAction) (nowNs : Nat) (reason : Reason) :
    ∃ l', l.Steps [.refused { a with tsNs := nowNs } reason] l' ∧
      Shows l' (s.refuse a nowNs reason) :=
  ⟨_, .single (.refused _ reason), h.queue, h.log.push _, u64_succ h.proposed, h.approved,
    h.committed, u64_succ h.rejected, h.rollbacks, h.depth⟩

theorem Shows.approve (h : Shows l s) (a : PolicyAction) (nowNs : Nat)
    (hroom : s.actionQueue.count < AUTONOMY_ACTION_CAP) :
    ∃ l', l.Steps [.approved (a.asApproved nowNs)] l' ∧ Shows l' (s.approve a nowNs hroom) := by
  have hlen : l.queue.length < AUTONOMY_ACTION_CAP := by
    rw [← h.queue, RingQueue.length_contents]
    exact hroom
  refine ⟨_, .single (.approved _ hlen), ?_, h.log.push _, u64_succ h.proposed,
    u64_succ h.approved, h.committed, h.rejected, h.rollbacks, rfl⟩
  show (s.actionQueue.push (a.asApproved nowNs) hroom).contents = _
  rw [RingQueue.contents_push, h.queue]

theorem Shows.front_eq (h : Shows l s) (hpos : 0 < s.actionQueue.count) :
    l.queue = s.actionQueue.front :: (s.actionQueue.pop hpos).contents := by
  rw [← h.queue, ← RingQueue.contents_pop]

theorem Shows.reject (h : Shows l s) (hpos : 0 < s.actionQueue.count) :
    ∃ l', l.Steps [.failed s.actionQueue.front] l' ∧
      Shows l' (reject s.actionQueue.front (failReason s.actionQueue.front) (s.take hpos)) :=
  ⟨_, .single (.failed _ (h.front_eq hpos)), rfl, h.log.push _, h.proposed, h.approved,
    h.committed, u64_succ h.rejected, h.rollbacks, rfl⟩

theorem Shows.commit (h : Shows l s) (hpos : 0 < s.actionQueue.count) (prev : Int) (nowNs : Nat) :
    ∃ l', l.Steps [.committed s.actionQueue.front nowNs] l' ∧
      Shows l' ((s.take hpos).commit s.actionQueue.front prev nowNs) :=
  ⟨_, .single (.committed _ nowNs (h.front_eq hpos)), rfl, h.log.push _, h.proposed, h.approved,
    u64_succ h.committed, h.rejected, h.rollbacks, rfl⟩

theorem Shows.rollBack (h : Shows l s) (nowNs : Nat) :
    ∃ l', l.Steps [.rolledBack s.lastCommitted nowNs] l' ∧ Shows l' (s.rollBack nowNs) :=
  ⟨_, .single (.rolledBack _ nowNs), { h with
    log := h.log.push _, rollbacks := u64_succ h.rollbacks }⟩

end

section

variable {clk : Nat → Nat} {fuel : Nat} {w w' : World} {l : Ledger} {es : List Effect}

theorem actionPropose_refines {s : State} (h : Shows l s) (health : Health.Summary) (nowNs : Nat)
    (action : Option PolicyAction) : ∃ l', l.Steps (proposeEffects health nowNs action s) l' ∧
      Shows l' (actionPropose health nowNs action s).2 := by
  cases action with
  | none => exact ⟨l, .nil, h⟩
  | some a =>
    rcases actionPropose_cases health nowNs a s with
      ⟨reason, status, hverdict, -, hcall⟩ | ⟨hverdict, hroom, hcall⟩
    · simp only [proposeEffects, hverdict, hcall]
      exact h.refuse a nowNs reason
    · simp only [proposeEffects, hverdict, hcall]
      exact h.approve a nowNs hroom

theorem actionCommitNext_refines {s s' : State} {sched sched' : SchedState} {env : CommitEnv}
    {reply : AiosStatus × Option PolicyEval} (h : Shows l s)
    (hcall : Commits env s sched reply s' sched') :
    ∃ l', l.Steps (commitEffects env s reply) l' ∧ Shows l' s' := by
  cases hcall with
  | idle hempty => exact ⟨l, by rw [commitEffects, if_pos hempty]; exact .nil, h⟩
  | failed hpos hst =>
    rw [commitEffects_failed hpos hst]
    exact h.reject hpos
  | kept hpos _ heval =>
    rw [commitEffects_kept hpos heval]
    exact h.commit hpos _ env.nowNs
  | takenBack hpos _ heval _ _ =>
    rw [commitEffects_takenBack hpos heval]
    obtain ⟨l₁, hcommit, h₁⟩ := h.commit hpos (priority sched _) env.nowNs
    obtain ⟨l₂, hback, h₂⟩ := h₁.rollBack env.rollbackNs
    exact ⟨l₂, hcommit.trans hback, h₂⟩

/-- **Every call is a sequence of ledger steps, with the effects it reports.** -/
theorem execTraced_refines (h : Shows l w.autonomy)
    (hcall : execTraced fuel clk c w = .done (es, w')) :
    ∃ l', l.Steps es l' ∧ Shows l' w'.autonomy := by
  cases c with
  | propose action nowNs =>
    cases hcall
    exact actionPropose_refines h _ nowNs action
  | commitNext hasEval env =>
    obtain ⟨⟨reply, s, sched⟩, hcommit, rfl, rfl⟩ := of_map₂ hcall
    exact actionCommitNext_refines h (actionCommitNext_cases hcommit)
  | rollbackLast nowNs =>
    obtain ⟨⟨status, s, sched⟩, hback, rfl, rfl⟩ := of_map₂ hcall
    rcases actionRollbackLast_cases hback with ⟨hst, rfl, -⟩ | ⟨i, rfl, -, -, -, -, rfl⟩
    · exact ⟨l, by rw [rollbackEffects, if_neg hst]; exact .nil, h⟩
    · exact h.rollBack nowNs
  | setObservationOnly enabled | setSafeMode enabled =>
    cases hcall
    exact ⟨l, .nil, { h with }⟩
  | markHealth id state =>
    cases hcall
    exact ⟨l, .nil, h⟩
  | sched c =>
    obtain ⟨w₁, hexec, rfl, rfl⟩ := of_map₂ hcall
    obtain ⟨⟨reply, sched'⟩, -, rfl⟩ := of_map hexec
    exact ⟨l, .nil, h⟩

end

/-! ## All runs -/

/-- A call of a run: the world it was made in, and its effects. -/
structure Entry where
  before : World
  call : Call
  effects : List Effect

def effectsOf (h : List Entry) : List Effect := h.flatMap Entry.effects

/-- The runs from `autonomy_init` on, with their history; the scheduler and the health may be in
any state before, and the calls meet `ok`. -/
inductive Run (clk : Nat → Nat) (ok : Call → Prop) : List Entry → World → Prop where
  | init (sched : SchedState) (health : List Health.Subsystem) :
      Run clk ok [] ⟨Autonomy.init, sched, health⟩
  | call {h : List Entry} {w w' : World} {c : Call} {fuel : Nat} {es : List Effect} :
      Run clk ok h w → ok c → execTraced fuel clk c w = .done (es, w') →
      Run clk ok (h ++ [⟨w, c, es⟩]) w'

theorem Run.shows (hr : Run clk ok h w) :
    ∃ l, Ledger.empty.Steps (effectsOf h) l ∧ Shows l w.autonomy := by
  induction hr with
  | init sched health => exact ⟨_, .nil, shows_init⟩
  | call _ _ hcall ih =>
    obtain ⟨l, hsteps, hl⟩ := ih
    obtain ⟨l', hsteps', hl'⟩ := execTraced_refines hl hcall
    refine ⟨l', ?_, hl'⟩
    rw [effectsOf, flatMap_append, ← effectsOf, flatMap_singleton]
    exact hsteps.trans hsteps'

/-- **Actions and events are conserved.**  In every run: the counters balance, in the arithmetic
of `uint64_t` and, below `2 ^ 64` proposals, exactly; the approved actions are those that commits
took, in order, followed by those that wait; and the log ends with the events of the run. -/
theorem run_conserves {clk : Nat → Nat} {h : List Entry} {w : World}
    (hr : Run clk (fun _ => True) h w) :
    let s := w.autonomy
    let n := (effectsOf h).length
    s.stats.actionsProposed =
      u64 (s.stats.actionsCommitted + s.stats.actionsRejected + s.actionQueue.count) ∧
    (proposalsOf (effectsOf h) < 2 ^ 64 → s.stats.actionsProposed =
      s.stats.actionsCommitted + s.stats.actionsRejected + s.actionQueue.count) ∧
    approvedOf (effectsOf h) = takenOf (effectsOf h) ++ s.actionQueue.contents ∧
    s.actionQueue.contents.length = s.actionQueue.count ∧
    s.actionQueue.count ≤ AUTONOMY_ACTION_CAP ∧
    s.eventCount = min n AUTONOMY_EVENT_CAP ∧
    s.events = ((effectsOf h).map Effect.event).drop (n - min n AUTONOMY_EVENT_CAP) := by
  obtain ⟨l, hsteps, hl⟩ := hr.shows
  have hsum := hsteps.proposed_eq
  have hqueue : l.queue.length = w.autonomy.actionQueue.count := by
    rw [← hl.queue, RingQueue.length_contents]
  have hlen : l.log.length = (effectsOf h).length := by rw [hsteps.log_eq, length_map]
  have hcount := hl.log.count_eq
  rw [hlen] at hcount
  refine ⟨?_, fun hfew => ?_, ?_, RingQueue.length_contents _, w.autonomy.actionQueue.count_le,
    hcount, ?_⟩
  · rw [hl.proposed, hl.committed, hl.rejected, hsum, hqueue]
    simp only [u64, Nat.add_mod, Nat.mod_mod]
  · rw [hl.proposed, hl.committed, hl.rejected]
    rw [← hsteps.proposals_eq] at hfew
    rw [u64_eq hfew, u64_eq (by omega), u64_eq (by omega), hsum, hqueue]
  · rw [hl.queue]
    exact hsteps.approved_eq
  · rw [State.events, hl.log.entries_eq, hlen, hsteps.log_eq]
    exact congrArg (fun k => List.drop (_ - k) _) hcount

/-- The effects of a call, and the world it leaves. -/
def afterTraced (c : Call) (w : World) : List Effect × World :=
  match execTraced (MAX_TASKS + 1) stillClock c w with
  | .done r => r
  | _ => ([], w)

theorem Run.after (hr : Run stillClock ok h w) (hok : ok c)
    (hcall : execTraced (MAX_TASKS + 1) stillClock c w = .done (afterTraced c w)) :
    Run stillClock ok (h ++ [⟨w, c, (afterTraced c w).1⟩]) (afterTraced c w).2 := .call hr hok hcall

/-- A list of calls, one after the other. -/
def runCalls (w : World) (cs : List Call) : List Entry × World :=
  cs.foldl (fun r c => (r.1 ++ [⟨r.2, c, (afterTraced c r.2).1⟩], (afterTraced c r.2).2)) ([], w)

/-- The gate is opened, a raise is proposed and committed. -/
def raiseCommitted : List Entry × World := runCalls oneTask
  [.setObservationOnly false, .propose (some raise) 0, .commitNext true stillEnv]

theorem run_raiseCommitted (hopen : ok (.setObservationOnly false))
    (hpropose : ok (.propose (some raise) 0)) (hcommit : ok (.commitNext true stillEnv)) :
    Run stillClock ok raiseCommitted.1 raiseCommitted.2 := by
  have hstart : Run stillClock ok [] oneTask := .init oneTask.sched oneTask.health
  exact ((hstart.after hopen rfl).after hpropose rfl).after hcommit rfl

/-- A proposal that is committed: the one action that was approved is the one that was taken. -/
theorem run_conserves_raise : approvedOf (effectsOf raiseCommitted.1) = [raise.asApproved 0] ∧
    approvedOf (effectsOf raiseCommitted.1) = takenOf (effectsOf raiseCommitted.1) ++
      raiseCommitted.2.autonomy.actionQueue.contents ∧
    raiseCommitted.2.autonomy.actionQueue.count = 0 :=
  ⟨rfl, (run_conserves (run_raiseCommitted trivial trivial trivial)).2.2.1, rfl⟩

end AiosKernel.Autonomy
