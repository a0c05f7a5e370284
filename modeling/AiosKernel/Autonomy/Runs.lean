/-
# `AiosKernel.Autonomy.Runs` — what the gate says when an action is committed

`autonomy_action_propose` asks the gate, `risk_allowed`, and
`autonomy_action_commit_next` does not.  So an action is committed under a gate
that allows it in those runs in which no change of mode or of health shuts the
gate on an action that waits in the queue (`KeepsOpen`): then all actions in the
queue are allowed all the time (`Reach.queue_allowed`).
-/
import AiosKernel.Autonomy.Model
import AiosKernel.Sched.Runs

namespace AiosKernel.Autonomy

open Sched SchedState Outcome

/-! ## Runs -/

/-- The autonomy plane with what it reads and writes. -/
structure World where
  autonomy : State
  sched : SchedState
  health : List Health.Subsystem

/-- What may happen: the calls of the autonomy plane, a change of health, a call of the
scheduler. -/
inductive Call where
  | propose (action : Option PolicyAction) (nowNs : Nat)
  | commitNext (hasEval : Bool) (env : CommitEnv)
  | rollbackLast (nowNs : Nat)
  | setObservationOnly (enabled : Bool)
  | setSafeMode (enabled : Bool)
  | markHealth (id : Nat) (state : Health.HealthState)
  | sched (c : Sched.Call)

/-- The world after a call that returns. -/
def exec (fuel : Nat) (clk : Nat → Nat) (c : Call) (w : World) : Outcome World :=
  match c with
  | .propose action nowNs =>
    let (_, s) := actionPropose (Health.getSummary w.health) nowNs action w.autonomy
    .done { w with autonomy := s }
  | .commitNext hasEval env => do
    let (_, s, sched) ← actionCommitNext fuel clk env hasEval w.autonomy w.sched
    .done { w with autonomy := s, sched := sched }
  | .rollbackLast nowNs => do
    let (_, s, sched) ← actionRollbackLast fuel clk nowNs w.autonomy w.sched
    .done { w with autonomy := s, sched := sched }
  | .setObservationOnly enabled => .done { w with autonomy := setObservationOnly enabled w.autonomy }
  | .setSafeMode enabled => .done { w with autonomy := setSafeMode enabled w.autonomy }
  | .markHealth id state => .done { w with health := Health.mark id state w.health }
  | .sched c => do
    let (_, sched) ← Sched.exec clk c w.sched fuel
    .done { w with sched := sched }

/-- The worlds of a run in which every call and the world it leaves meet `ok`; the scheduler and
the health may be in any state when the autonomy plane is initialised. -/
inductive Reach (clk : Nat → Nat) (ok : Call → World → Prop) : World → Prop where
  | init (sched : SchedState) (health : List Health.Subsystem) :
      Reach clk ok ⟨Autonomy.init, sched, health⟩
  | call {w w' : World} {c : Call} {fuel : Nat} : Reach clk ok w →
      exec fuel clk c w = .done w' → ok c w' → Reach clk ok w'

/-- The gate as it stands allows the action. -/
def World.allows (w : World) (a : PolicyAction) : Bool :=
  riskAllowed (Health.getSummary w.health) w.autonomy.stats a.riskLevel

/-- A call that moves the gate leaves it open to the actions that wait. -/
def KeepsOpen (c : Call) (w : World) : Prop :=
  match c with
  | .setObservationOnly _ | .setSafeMode _ | .markHealth _ _ =>
    ∀ a ∈ w.autonomy.actionQueue.contents, w.allows a = true
  | _ => True

variable {health : Health.Summary} {ok : Call → World → Prop}

theorem riskAllowed_eq_true {stats : AutonomyStats} {risk : Nat} :
    riskAllowed health stats risk = true ↔
      stats.observationOnly = false ∧ ¬ (stats.safeMode = true ∧ 0 < risk) ∧
        health.level ≠ .unsafeLevel ∧ ¬ (health.level = .degraded ∧ 0 < risk) := by
  simp only [riskAllowed, Bool.if_false_left, Bool.and_eq_true, Bool.not_eq_true',
    decide_eq_false_iff_not, Bool.not_eq_true, and_true]
  constructor
  · rintro ⟨hlevel, hdegraded, hsafe, hobserve⟩
    exact ⟨hobserve, hsafe, hlevel, hdegraded⟩
  · rintro ⟨hobserve, hsafe, hlevel, hdegraded⟩
    exact ⟨hlevel, hdegraded, hsafe, hobserve⟩

/-! ## What a call does to the queue and the mode -/

def AutonomyStats.mode (st : AutonomyStats) : Bool × Bool := (st.observationOnly, st.safeMode)

theorem riskAllowed_congr {st st' : AutonomyStats} (h : st'.mode = st.mode) (risk : Nat) :
    riskAllowed health st' risk = riskAllowed health st risk := by
  obtain ⟨hobserve, hsafe⟩ := Prod.mk.inj h
  unfold riskAllowed
  rw [hobserve, hsafe]

/-- The switches stay, and what is queued afterwards was queued or has just been let in. -/
structure Moves (admits : PolicyAction → Prop) (s s' : State) : Prop where
  mode : s'.stats.mode = s.stats.mode
  queue : ∀ a ∈ s'.actionQueue.contents, a ∈ s.actionQueue.contents ∨ admits a

section

variable {s s' : State} {sched sched' : SchedState} {fuel : Nat} {clk : Nat → Nat}

theorem Moves.refl (admits : PolicyAction → Prop) (s : State) : Moves admits s s :=
  ⟨rfl, fun _ ha => .inl ha⟩

theorem Moves.of_eq {admits : PolicyAction → Prop} (hmode : s'.stats.mode = s.stats.mode)
    (hqueue : s'.actionQueue = s.actionQueue) : Moves admits s s' :=
  ⟨hmode, fun _ ha => .inl (hqueue ▸ ha)⟩

theorem actionPropose_moves (nowNs : Nat) (action : Option PolicyAction) :
    Moves (fun a => riskAllowed health s.stats a.riskLevel = true) s
      (actionPropose health nowNs action s).2 := by
  unfold actionPropose
  cases action with
  | none => exact Moves.refl _ s
  | some action =>
    dsimp only
    split
    · exact .of_eq rfl rfl
    repeat' split
    all_goals try exact .of_eq rfl rfl
    rename_i hallowed
    refine ⟨rfl, ?_⟩
    intro a ha
    rw [logEvent, State.setStats, RingQueue.contents_push] at ha
    rcases List.mem_append.mp ha with ha | ha
    · exact .inl ha
    · obtain rfl := List.mem_singleton.mp ha
      rw [Bool.not_eq_true', Bool.not_eq_false] at hallowed
      exact .inr ((riskAllowed_congr (by rfl) _).symm.trans hallowed)

variable {status : AiosStatus}

theorem applyAction_moves {action : PolicyAction}
    (h : applyAction fuel clk action s sched = .done (status, s', sched')) :
    ∃ ctx, s' = { s with rollbackCtx := ctx } := by
  unfold applyAction applySchedAction at h
  split at h
  · split at h
    · cases h
      exact ⟨s.rollbackCtx, rfl⟩
    · obtain ⟨⟨st', sched₁⟩, -, h⟩ := bind_eq_done.mp h
      cases h
      exact ⟨_, rfl⟩
  · cases h
    exact ⟨s.rollbackCtx, rfl⟩

theorem actionRollbackLast_moves {nowNs : Nat}
    (h : actionRollbackLast fuel clk nowNs s sched = .done (status, s', sched')) :
    s'.stats.mode = s.stats.mode ∧ s'.actionQueue = s.actionQueue := by
  unfold actionRollbackLast at h
  iterate 2
    split at h
    · cases h
      exact ⟨rfl, rfl⟩
  obtain ⟨⟨st', sched₁⟩, -, h⟩ := bind_eq_done.mp h
  dsimp only at h
  split at h
  all_goals
    cases h
    exact ⟨rfl, rfl⟩

theorem actionCommitNext_moves {env : CommitEnv} {hasEval : Bool}
    {reply : AiosStatus × Option PolicyEval}
    (h : actionCommitNext fuel clk env hasEval s sched = .done (reply, s', sched')) :
    s'.stats.mode = s.stats.mode ∧ s'.actionQueue.contents = s.actionQueue.contents.tail := by
  unfold actionCommitNext at h
  split at h
  · rename_i hempty
    cases h
    have hnil : s.actionQueue.contents = [] := List.length_eq_zero_iff.mp (by simpa using hempty)
    exact ⟨rfl, by rw [hnil]; rfl⟩
  rename_i hempty
  have htail : (s.actionQueue.pop (Nat.pos_of_ne_zero hempty)).contents =
      s.actionQueue.contents.tail := by
    rw [s.actionQueue.contents_pop (Nat.pos_of_ne_zero hempty), List.tail_cons]
  rw [← htail]
  obtain ⟨⟨status, s₁, sched₁⟩, happly, h⟩ := bind_eq_done.mp h
  obtain ⟨ctx, rfl⟩ := applyAction_moves happly
  dsimp only at h
  split at h
  · cases h
    exact ⟨rfl, rfl⟩
  unfold recordCommit at h
  dsimp only at h
  split at h
  · cases h
    exact ⟨rfl, rfl⟩
  split at h
  · obtain ⟨⟨status', s₂, sched₂⟩, hrollback, h⟩ := bind_eq_done.mp h
    cases h
    obtain ⟨hmode, hqueue⟩ := actionRollbackLast_moves hrollback
    exact ⟨hmode, congrArg RingQueue.contents hqueue⟩
  · cases h
    exact ⟨rfl, rfl⟩

end

/-! ## All runs -/

section

variable {clk : Nat → Nat} {w w' : World}

/-- Every action that waits is allowed by the gate as it stands. -/
def World.QueueAllowed (w : World) : Prop :=
  ∀ a ∈ w.autonomy.actionQueue.contents, w.allows a = true

theorem World.QueueAllowed.of_moves {s' : State} {sched' : SchedState} (h : w.QueueAllowed)
    (hmode : s'.stats.mode = w.autonomy.stats.mode)
    (hqueue : ∀ a ∈ s'.actionQueue.contents, a ∈ w.autonomy.actionQueue.contents ∨ w.allows a = true) :
    World.QueueAllowed { w with autonomy := s', sched := sched' } := by
  intro a ha
  refine (riskAllowed_congr hmode _).trans ?_
  rcases hqueue a ha with ha | ha
  · exact h a ha
  · exact ha

theorem exec_queueAllowed {c : Call} {fuel : Nat} (h : w.QueueAllowed)
    (hcall : exec fuel clk c w = .done w') (hok : KeepsOpen c w') : w'.QueueAllowed := by
  cases c with
  | propose action nowNs =>
    cases hcall
    obtain ⟨hmode, hqueue⟩ :=
      actionPropose_moves nowNs action
    exact h.of_moves hmode hqueue
  | commitNext hasEval env =>
    obtain ⟨⟨reply, s', sched'⟩, hcommit, rfl⟩ := of_map hcall
    obtain ⟨hmode, hqueue⟩ := actionCommitNext_moves hcommit
    exact h.of_moves hmode fun a ha => .inl (List.mem_of_mem_tail (hqueue ▸ ha))
  | rollbackLast nowNs =>
    obtain ⟨⟨status, s', sched'⟩, hrollback, rfl⟩ := of_map hcall
    obtain ⟨hmode, hqueue⟩ := actionRollbackLast_moves hrollback
    exact h.of_moves hmode fun a ha => .inl (hqueue ▸ ha)
  | setObservationOnly enabled | setSafeMode enabled | markHealth id state => exact hok
  | sched c =>
    obtain ⟨⟨reply, sched'⟩, -, rfl⟩ := of_map hcall
    exact h

/-- While no change shuts the gate on an action that waits, all of them are allowed. -/
theorem Reach.queue_allowed (hr : Reach clk KeepsOpen w) : w.QueueAllowed := by
  induction hr with
  | init sched health =>
    intro a ha
    exact nomatch ha
  | call _ hcall hok ih => exact exec_queueAllowed ih hcall hok

def priority (sched : SchedState) (i : Nat) : Int := (sched.taskPool i).sched.priority

/-- A commit changes a priority: in the end, or when it applies the action, whether or not it
takes that back. -/
def CommitChanges (fuel : Nat) (clk : Nat → Nat) (w w' : World) : Prop :=
  ∃ i, priority w'.sched i ≠ priority w.sched i ∨
    0 < w.autonomy.actionQueue.count ∧ ∃ status s₁ sched₁,
      applyAction fuel clk w.autonomy.actionQueue.front w.autonomy w.sched =
        .done (status, s₁, sched₁) ∧ priority sched₁ i ≠ priority w.sched i

/-- In every run in which no change of mode or health shuts the gate on an action that waits: a
commit that changes a priority does so while autonomy is not observing only, not in safe mode with
an action of positive risk, and not in a kernel that is unsafe, or degraded with an action of
positive risk. -/
theorem commit_changes_allowed {hasEval : Bool} {env : CommitEnv} {fuel : Nat}
    (hr : Reach clk KeepsOpen w) (hcommit : exec fuel clk (.commitNext hasEval env) w = .done w')
    (hchange : CommitChanges fuel clk w w') :
    w.autonomy.stats.observationOnly = false ∧
      ¬ (w.autonomy.stats.safeMode = true ∧ 0 < w.autonomy.actionQueue.front.riskLevel) ∧
      (Health.getSummary w.health).level ≠ .unsafeLevel ∧
      ¬ ((Health.getSummary w.health).level = .degraded ∧
        0 < w.autonomy.actionQueue.front.riskLevel) := by
  refine riskAllowed_eq_true.mp (hr.queue_allowed _ (RingQueue.front_mem _ ?_))
  obtain ⟨i, hi | ⟨hpos, -⟩⟩ := hchange
  · -- with an empty queue the scheduler is left alone
    refine Nat.pos_of_ne_zero ?_
    intro hempty
    refine hi ?_
    simp only [exec, actionCommitNext, dif_pos hempty, Outcome.done_bind] at hcommit
    cases hcommit
    rfl
  · exact hpos

end

/-! ## One action -/

def after (c : Call) (w : World) : World :=
  match exec (MAX_TASKS + 1) stillClock c w with
  | .done w' => w'
  | _ => w

theorem Reach.after {w : World} (hr : Reach stillClock ok w) (c : Call)
    (hcall : exec (MAX_TASKS + 1) stillClock c w = .done (after c w)) (hok : ok c (after c w)) :
    Reach stillClock ok (after c w) := .call hr hcall hok

def oneTask : World :=
  ⟨init, Sched.after (.submit 1) (Sched.after createInference start), Health.initial⟩

/-- Raise its priority by ten, at risk level 1. -/
def raise : PolicyAction := ⟨1, 1, AUTONOMY_TARGET_SCHED, 10, 0, .proposed, .ok⟩

/-- The action is proposed while the gate is open. -/
def raiseQueued : World :=
  after (.propose (some raise) 0) (after (.setObservationOnly false) oneTask)

theorem reach_raiseQueued
    (hopen : ok (.setObservationOnly false) (after (.setObservationOnly false) oneTask))
    (hpropose : ok (.propose (some raise) 0) raiseQueued) : Reach stillClock ok raiseQueued :=
  Reach.after (Reach.after (.init _ _) _ rfl hopen) _ rfl hpropose

/-- What a commit finds on a quiet machine. -/
def stillEnv : CommitEnv := ⟨0, 0, 0, 0⟩

theorem commit_changes_allowed_raise :
    ∃ w, Reach stillClock KeepsOpen w ∧
      exec (MAX_TASKS + 1) stillClock (.commitNext true stillEnv) w =
        .done (after (.commitNext true stillEnv) w) ∧
      CommitChanges (MAX_TASKS + 1) stillClock w (after (.commitNext true stillEnv) w) ∧
      w.autonomy.stats.observationOnly = false := by
  have hr : Reach stillClock KeepsOpen raiseQueued :=
    reach_raiseQueued (fun a ha => nomatch ha) trivial
  have hchange : CommitChanges (MAX_TASKS + 1) stillClock raiseQueued
      (after (.commitNext true stillEnv) raiseQueued) := ⟨0, .inl (by decide +kernel)⟩
  have hcommit : exec (MAX_TASKS + 1) stillClock (.commitNext true stillEnv) raiseQueued =
      .done (after (.commitNext true stillEnv) raiseQueued) := rfl
  exact ⟨raiseQueued, hr, hcommit, hchange, (commit_changes_allowed hr hcommit hchange).1⟩

/-- Then autonomy is told to observe only, safe mode is set, and a required subsystem fails. -/
def raiseForbidden : World :=
  after (.markHealth 0 .failed) (after (.setSafeMode true)
    (after (.setObservationOnly true) raiseQueued))

/-- The action is committed all the same. -/
theorem commit_ignores_gate :
    ∃ w w' i, Reach stillClock (fun _ _ => True) w ∧
      w.autonomy.stats.observationOnly = true ∧ w.autonomy.stats.safeMode = true ∧
      0 < w.autonomy.actionQueue.front.riskLevel ∧
      (Health.getSummary w.health).level = .unsafeLevel ∧
      exec (MAX_TASKS + 1) stillClock (.commitNext true stillEnv) w = .done w' ∧
      priority w'.sched i ≠ priority w.sched i := by
  refine ⟨raiseForbidden, after (.commitNext true stillEnv) raiseForbidden, 0, ?_, by decide +kernel,
    by decide +kernel, by decide +kernel, by decide +kernel, rfl, by decide +kernel⟩
  exact Reach.after (Reach.after (Reach.after (reach_raiseQueued trivial trivial) _ rfl trivial)
    _ rfl trivial) _ rfl trivial

end AiosKernel.Autonomy
