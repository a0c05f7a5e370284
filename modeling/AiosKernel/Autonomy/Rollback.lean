/-
# `AiosKernel.Autonomy.Rollback` — a rollback restores what the last commit replaced

`rollback_ctx` is written when an action is applied, `last_committed` when the
commit is recorded, and `autonomy_action_rollback_last` trusts both.  They agree
because an action whose task is found cannot fail to be applied (`Applies`), so
the context always belongs to the last commit that was recorded and not taken
back (`Pending`).

The runs of this module make no call of the scheduler but `ai_task_set_priority`.
-/
import AiosKernel.Autonomy.Ledger

namespace AiosKernel.Autonomy

open Word Sched SchedState Outcome List

/-! ## What a call does to the record -/

/-- A commit or a rollback. -/
def Effect.turns : Effect → Bool
  | .committed .. => true
  | .rolledBack .. => true
  | _ => false

/-- The scheduler is called for priorities only. -/
def PriorityCalls : Call → Prop
  | .sched (.setPriority _ _) => True
  | .sched _ => False
  | _ => True

/-- What the autonomy plane remembers of its last commit. -/
structure Record where
  hasLast : Bool
  last : PolicyAction
  ctx : RollbackCtx

def State.record (s : State) : Record := ⟨s.hasLastCommitted, s.lastCommitted, s.rollbackCtx⟩

def SameTasks (sched sched' : SchedState) : Prop := ∀ id, sched'.findTask id = sched.findTask id

/-- What a call does to the record and to the task it names. -/
inductive Turn (w : World) : List Effect → World → Prop where
  | quiet {es : List Effect} {w' : World} : (∀ e ∈ es, e.turns = false) →
      w'.autonomy.record = w.autonomy.record → SameTasks w.sched w'.sched → Turn w es w'
  | commit {w' : World} {i : Nat} (a : PolicyAction) (nowNs : Nat) : Applies a i w.sched w'.sched →
      w'.autonomy.record = ⟨true, a.asCommitted nowNs,
        ⟨true, a.targetSubsys, a.actionId, priority w.sched i⟩⟩ →
      Turn w [.committed a nowNs] w'
  | takenBack {w' : World} (a : PolicyAction) (nowNs rollbackNs : Nat) :
      w'.autonomy.hasLastCommitted = false → SameTasks w.sched w'.sched →
      Turn w [.committed a nowNs, .rolledBack (a.asCommitted nowNs) rollbackNs] w'
  | rollback {w' : World} (nowNs : Nat) : w.autonomy.hasLastCommitted = true →
      w'.autonomy.hasLastCommitted = false → SameTasks w.sched w'.sched →
      Turn w [.rolledBack w.autonomy.lastCommitted nowNs] w'

section

variable {clk : Nat → Nat} {fuel : Nat} {w w' : World} {es : List Effect}

theorem actionPropose_record (health : Health.Summary) (nowNs : Nat) (action : Option PolicyAction)
    (s : State) : (actionPropose health nowNs action s).2.record = s.record ∧
      ∀ e ∈ proposeEffects health nowNs action s, e.turns = false := by
  cases action with
  | none => exact ⟨rfl, by simp [proposeEffects]⟩
  | some a =>
    rcases actionPropose_cases health nowNs a s with
      ⟨reason, status, hverdict, -, hcall⟩ | ⟨hverdict, hroom, hcall⟩
    all_goals
      rw [hcall]
      exact ⟨rfl, by simp [proposeEffects, hverdict, Effect.turns]⟩

theorem actionCommitNext_turn {env : CommitEnv} {reply : AiosStatus × Option PolicyEval}
    {s' : State} {sched' : SchedState} (h : Commits env w.autonomy w.sched reply s' sched') :
    Turn w (commitEffects env w.autonomy reply) { w with autonomy := s', sched := sched' } := by
  cases h with
  | idle hempty =>
    rw [commitEffects, if_pos hempty]
    exact .quiet (by simp) rfl fun _ => rfl
  | failed hpos hst =>
    rw [commitEffects_failed hpos hst]
    exact .quiet (by simp [Effect.turns]) rfl fun _ => rfl
  | kept hpos happlies heval =>
    rw [commitEffects_kept hpos heval]
    exact .commit _ env.nowNs happlies rfl
  | takenBack hpos happlies heval _ hback =>
    rw [commitEffects_takenBack hpos heval]
    refine .takenBack _ env.nowNs env.rollbackNs rfl fun id => ?_
    exact (hback.findTask_eq id).trans (happlies.written.findTask_eq id)

/-- **Each call of a run is one of the turns.** -/
theorem execTraced_turn {c : Call} (hok : PriorityCalls c)
    (hcall : execTraced fuel clk c w = .done (es, w')) : Turn w es w' := by
  cases c with
  | propose action nowNs =>
    cases hcall
    obtain ⟨hrecord, hquiet⟩ :=
      actionPropose_record (Health.getSummary w.health) nowNs action w.autonomy
    exact .quiet hquiet hrecord fun _ => rfl
  | commitNext hasEval env =>
    obtain ⟨⟨reply, s, sched⟩, hcommit, rfl, rfl⟩ := of_map₂ hcall
    exact actionCommitNext_turn (actionCommitNext_cases hcommit)
  | rollbackLast nowNs =>
    obtain ⟨⟨status, s, sched⟩, hback, rfl, rfl⟩ := of_map₂ hcall
    rcases actionRollbackLast_cases hback with
      ⟨hst, rfl, rfl⟩ | ⟨i, rfl, hlast, -, -, hwrite, rfl⟩
    · rw [rollbackEffects, if_neg hst]
      exact .quiet (by simp) rfl fun _ => rfl
    · exact .rollback nowNs hlast rfl hwrite.findTask_eq
  | setObservationOnly enabled | setSafeMode enabled | markHealth id state =>
    cases hcall
    exact .quiet (by simp) rfl fun _ => rfl
  | sched c =>
    obtain ⟨w₁, hexec, rfl, rfl⟩ := of_map₂ hcall
    obtain ⟨⟨reply, sched'⟩, hsched, rfl⟩ := of_map hexec
    cases c with
    | setPriority id priority =>
      obtain ⟨⟨st, s₁⟩, hset, -, rfl⟩ := of_map₂ hsched
      refine .quiet (by simp) rfl ?_
      rcases aiTaskSetPriority_cases hset with ⟨-, -, rfl⟩ | ⟨i, -, -, hwrite⟩
      · exact fun _ => rfl
      · exact hwrite.findTask_eq
    | _ => exact hok.elim

end

/-! ## The last commit -/

/-- The last commit of the history that was not taken back: the entry it was made in, and nothing
but quiet entries since. -/
structure Pending (h : List Entry) (w : World) (e : Entry) (a : PolicyAction) (nowNs i : Nat) :
    Prop where
  history : ∃ older newer, h = older ++ e :: newer ∧
    ∀ e' ∈ newer, ∀ x ∈ e'.effects, x.turns = false
  effects : e.effects = [.committed a nowNs]
  found : e.before.sched.findTask a.actionId = some i
  found_now : w.sched.findTask a.actionId = some i
  record : w.autonomy.record = ⟨true, a.asCommitted nowNs,
    ⟨true, a.targetSubsys, a.actionId, priority e.before.sched i⟩⟩

section

variable {clk : Nat → Nat} {h : List Entry} {w w' : World} {es : List Effect}

variable {e : Entry} {nowNs i : Nat}

theorem Pending.quiet {a : PolicyAction} {c : Call} (hp : Pending h w e a nowNs i)
    (hquiet : ∀ x ∈ es, x.turns = false) (hrecord : w'.autonomy.record = w.autonomy.record)
    (htasks : SameTasks w.sched w'.sched) : Pending (h ++ [⟨w, c, es⟩]) w' e a nowNs i := by
  obtain ⟨older, newer, hh, hnewer⟩ := hp.history
  refine ⟨⟨older, newer ++ [⟨w, c, es⟩], by rw [hh]; simp, ?_⟩, hp.effects, hp.found,
    (htasks _).trans hp.found_now, hrecord.trans hp.record⟩
  exact forall_mem_append.mpr ⟨hnewer, forall_mem_singleton.mpr hquiet⟩

theorem Run.pending (hr : Run clk PriorityCalls h w) (hlast : w.autonomy.hasLastCommitted = true) :
    ∃ e a nowNs i, Pending h w e a nowNs i := by
  induction hr with
  | init sched health => cases hlast
  | call _ hok hcall ih =>
    cases execTraced_turn hok hcall with
    | quiet hquiet hrecord htasks =>
      obtain ⟨e, a, nowNs, i, hp⟩ := ih ((congrArg Record.hasLast hrecord).symm.trans hlast)
      exact ⟨e, a, nowNs, i, hp.quiet hquiet hrecord htasks⟩
    | commit a nowNs happlies hrecord =>
      exact ⟨_, a, nowNs, _, ⟨⟨_, [], rfl, by simp⟩, rfl, happlies.found,
        (happlies.written.findTask_eq _).trans happlies.found, hrecord⟩⟩
    | takenBack a nowNs rollbackNs hnone _ | rollback nowNs _ hnone _ =>
      rw [hnone] at hlast
      cases hlast

/-- Among the effects, the last commit not taken back is this one. -/
def LastCommit (es : List Effect) (b : PolicyAction) : Prop :=
  ∃ older a nowNs newer, es = older ++ .committed a nowNs :: newer ∧
    (∀ x ∈ newer, x.turns = false) ∧ b = a.asCommitted nowNs

/-- Every rollback takes back the commit before it, with no other commit or rollback between. -/
def Matched (es : List Effect) : Prop :=
  ∀ older b nowNs newer, es = older ++ .rolledBack b nowNs :: newer → LastCommit older b

theorem Matched.append {es es' : List Effect} (h : Matched es)
    (h' : ∀ older b nowNs newer, es' = older ++ .rolledBack b nowNs :: newer →
      LastCommit (es ++ older) b) : Matched (es ++ es') := by
  intro older b nowNs newer heq
  rcases append_eq_append_iff.mp heq with ⟨mid, hmid, hes'⟩ | ⟨mid, hmid, hrest⟩
  · rw [hmid]
    exact h' mid b nowNs newer hes'
  · cases mid with
    | nil =>
      rw [append_nil] at hmid
      rw [← hmid, ← append_nil es]
      exact h' [] b nowNs newer (by simpa using hrest.symm)
    | cons x mid =>
      cases hrest
      exact h older b nowNs mid hmid

theorem Pending.lastCommit {a : PolicyAction} (hp : Pending h w e a nowNs i) :
    LastCommit (effectsOf h) w.autonomy.lastCommitted := by
  obtain ⟨older, newer, hh, hnewer⟩ := hp.history
  refine ⟨effectsOf older, a, nowNs, effectsOf newer, ?_, fun x hx => ?_,
    congrArg Record.last hp.record⟩
  · rw [hh, effectsOf, flatMap_append, flatMap_cons, hp.effects]
    rfl
  · obtain ⟨e', he', hx⟩ := mem_flatMap.mp hx
    exact hnewer e' he' x hx

theorem Run.matched (hr : Run clk PriorityCalls h w) : Matched (effectsOf h) := by
  induction hr with
  | init sched health =>
    intro older b nowNs newer heq
    simp [effectsOf] at heq
  | @call h w w' c fuel es hprev hok hcall ih =>
    rw [effectsOf, flatMap_append, ← effectsOf, flatMap_singleton]
    refine ih.append fun older b nowNs newer heq => ?_
    change es = _ at heq
    have hmem : .rolledBack b nowNs ∈ es := by simp [heq]
    cases execTraced_turn hok hcall with
    | quiet hquiet _ _ => cases hquiet _ hmem
    | commit a nowNs' _ _ => cases mem_singleton.mp hmem
    | takenBack a nowNs' rollbackNs _ _ =>
      -- the rollback comes second, right behind its commit
      cases older with
      | nil => cases heq
      | cons x older =>
        obtain ⟨rfl, hsecond⟩ := List.cons.inj heq
        cases older with
        | nil =>
          obtain ⟨rfl, rfl⟩ := Effect.rolledBack.inj (List.cons.inj hsecond).1
          exact ⟨effectsOf h, a, nowNs', [], rfl, by simp, rfl⟩
        | cons y older => simp at hsecond
    | rollback nowNs' hlast _ _ =>
      cases older with
      | nil =>
        obtain ⟨rfl, rfl⟩ := Effect.rolledBack.inj (List.cons.inj heq).1
        obtain ⟨e, a, nowNs, i, hp⟩ := hprev.pending hlast
        rw [append_nil]
        exact hp.lastCommit
      | cons x older => simp at heq

end

/-! ## How far a commit moves a priority -/

variable {a : PolicyAction} {clk : Nat → Nat}

theorem deltaWithinBounds_iff : deltaWithinBounds a = true ↔
    a.targetSubsys = AUTONOMY_TARGET_SCHED ∧ -32 ≤ a.deltaValue ∧ a.deltaValue ≤ 32 := by
  unfold deltaWithinBounds
  split
  all_goals
    rename_i htarget
    simp [htarget]

theorem execTraced_approved {fuel : Nat} {c : Call} {w w' : World} {es : List Effect}
    (hcall : execTraced fuel clk c w = .done (es, w')) (ha : .approved a ∈ es) :
    deltaWithinBounds a = true := by
  cases c with
  | propose action nowNs =>
    cases hcall
    cases action with
    | none => cases ha
    | some b =>
      cases hverdict : verdict (Health.getSummary w.health) b w.autonomy with
      | some reason => simp [proposeEffects, hverdict] at ha
      | none =>
        obtain rfl : a = b.asApproved nowNs := by simpa [proposeEffects, hverdict] using ha
        unfold verdict at hverdict
        split_ifs at hverdict with _ _ _ _ hdelta _
        exact (by simpa using hdelta : deltaWithinBounds b = true)
  | commitNext hasEval env =>
    obtain ⟨⟨reply, s, sched⟩, -, rfl, -⟩ := of_map₂ hcall
    simp only [commitEffects] at ha
    split_ifs at ha <;> simp at ha
  | rollbackLast nowNs =>
    obtain ⟨⟨status, s, sched⟩, -, rfl, -⟩ := of_map₂ hcall
    simp only [rollbackEffects] at ha
    split_ifs at ha <;> simp at ha
  | _ =>
    obtain ⟨w₁, -, rfl, -⟩ := of_map₂ hcall
    cases ha

variable {ok : Call → Prop} {h : List Entry} {w : World} {sched sched' : SchedState}

theorem Run.approved_within (hr : Run clk ok h w) :
    ∀ a, .approved a ∈ effectsOf h → deltaWithinBounds a = true := by
  induction hr with
  | init sched health => simp [effectsOf]
  | @call h w w' c fuel es _ _ hcall ih =>
    intro a ha
    rw [effectsOf, flatMap_append, ← effectsOf, flatMap_singleton] at ha
    rcases mem_append.mp ha with ha | ha
    · exact ih a ha
    · exact execTraced_approved hcall ha

theorem clampPriority_bounds (p δ : Int) : 0 ≤ clampPriority (p + δ) ∧ clampPriority (p + δ) ≤ 255 ∧
    (0 ≤ p → p ≤ 255 → -32 ≤ δ → δ ≤ 32 →
      p - 32 ≤ clampPriority (p + δ) ∧ clampPriority (p + δ) ≤ p + 32) := by
  unfold clampPriority
  refine ⟨?_, ?_, fun _ _ _ _ => ?_⟩
  all_goals split_ifs <;> omega

def penalties (frame : TelemetryFrame) : Nat :=
  min (u64 (frame.fragmentation * 500)) 250000 +
    min (u64 (frame.sched.failedTasks * 10000)) 250000 +
    min (frame.sched.avgWaitNs / 1000) 250000 + min (u64 (frame.sched.activeTasks * 1000)) 100000

theorem penalties_sum {a b c d : Nat} (ha : a ≤ 250000) (hb : b ≤ 250000) (hc : c ≤ 250000)
    (hd : d ≤ 100000) :
    sub64 (sub64 (sub64 (sub64 1000000 a) b) c) d + (a + b + c + d) = 1000000 ∧
      150000 ≤ sub64 (sub64 (sub64 (sub64 1000000 a) b) c) d := by
  rw [sub64_eq (b := a) (by omega) (by omega), sub64_eq (b := b) (by omega) (by omega),
    sub64_eq (b := c) (by omega) (by omega), sub64_eq (by omega) (by omega)]
  omega

theorem computeEvalScore_add (frame : TelemetryFrame) :
    computeEvalScore frame + penalties frame = 1000000 ∧ 150000 ≤ computeEvalScore frame :=
  penalties_sum (min_le_right ..) (min_le_right ..) (min_le_right ..)
    (min_le_right ..)

theorem Applies.telemetry_eq {i : Nat} (h : Applies a i sched sched') (frag : Nat) :
    collectLiveTelemetry frag sched' = collectLiveTelemetry frag sched := by
  rw [collectLiveTelemetry, h.written.stats_eq, collectLiveTelemetry]

theorem Applies.not_worse {i : Nat} (h : Applies a i sched sched') (frag : Nat) :
    ¬ u64 (computeEvalScore (collectLiveTelemetry frag sched') + 5000) <
      computeEvalScore (collectLiveTelemetry frag sched) := by
  have hsum := (computeEvalScore_add (collectLiveTelemetry frag sched)).1
  rw [h.telemetry_eq, u64_eq (by omega)]
  omega

/-- What a successful commit does to the priorities. -/
structure CommitMoves (a : PolicyAction) (eval : Option PolicyEval) (env : CommitEnv)
    (sched sched' : SchedState) (i : Nat) : Prop where
  found : sched.findTask a.actionId = some i
  others : ∀ j, j ≠ i → (sched'.taskPool j).unlinked = (sched.taskPool j).unlinked
  /-- A commit that stands leaves a priority in range. -/
  range : eval.any PolicyEval.rollbackTriggered = false →
    0 ≤ priority sched' i ∧ priority sched' i ≤ 255
  /-- It moves a priority that was in range by at most 32. -/
  near : 0 ≤ priority sched i → priority sched i ≤ 255 →
    priority sched i - 32 ≤ priority sched' i ∧ priority sched' i ≤ priority sched i + 32
  /-- A commit that takes itself back leaves the priority as it was. -/
  back : eval.any PolicyEval.rollbackTriggered = true → priority sched' i = priority sched i
  /-- It does so only if the fragmentation of memory changed in between. -/
  stands : env.fragAfter = env.fragBefore → eval.any PolicyEval.rollbackTriggered = false

theorem Commits.moves {env : CommitEnv} {s s' : State} {eval : Option PolicyEval}
    (h : Commits env s sched (.ok, eval) s' sched')
    (hbounds : ∀ a ∈ s.actionQueue.contents, deltaWithinBounds a = true) :
    ∃ i, CommitMoves s.actionQueue.front eval env sched sched' i := by
  have hdelta : ∀ hpos : 0 < s.actionQueue.count,
      -32 ≤ s.actionQueue.front.deltaValue ∧ s.actionQueue.front.deltaValue ≤ 32 :=
    fun hpos => (deltaWithinBounds_iff.mp (hbounds _ (RingQueue.front_mem _ hpos))).2
  cases h with
  | failed hpos hst => exact absurd rfl hst
  | @kept eval i sched' hpos happlies heval =>
    obtain ⟨hlo, hhi⟩ := hdelta hpos
    obtain ⟨hge, hle, hnear⟩ := clampPriority_bounds (priority sched i)
      s.actionQueue.front.deltaValue
    have hnew : priority sched' i = _ := happlies.written.priority_eq
    refine ⟨i, happlies.found, happlies.written.frame.tasks, fun _ => ?_, fun h₀ h₁ => ?_, ?_,
      fun _ => heval⟩
    · rw [hnew]
      exact ⟨hge, hle⟩
    · rw [hnew]
      exact hnear h₀ h₁ hlo hhi
    · rw [heval]
      exact fun hne => absurd hne Bool.false_ne_true
  | @takenBack eval i sched₁ sched' hpos happlies heval hworse hback =>
    have hsame : priority sched' i = priority sched i := hback.priority_eq
    refine ⟨i, happlies.found, (happlies.written.frame.trans hback.frame).tasks, ?_, ?_,
      fun _ => hsame, fun hfrag => ?_⟩
    · rw [heval]
      exact fun hne => absurd hne.symm Bool.false_ne_true
    · omega
    · rw [hfrag] at hworse
      exact absurd hworse (happlies.not_worse env.fragBefore)

theorem Run.queue_within (hr : Run clk ok h w) :
    ∀ a ∈ w.autonomy.actionQueue.contents, deltaWithinBounds a = true := by
  intro a ha
  obtain ⟨l, hsteps, hl⟩ := hr.shows
  have hmem : a ∈ approvedOf (effectsOf h) := by
    rw [hsteps.approved_eq, ← hl.queue]
    exact mem_append_right _ ha
  obtain ⟨e, he, hsome⟩ := mem_filterMap.mp hmem
  cases e with
  | approved b =>
    obtain rfl := Option.some.inj hsome
    exact hr.approved_within b he
  | _ => cases hsome

/-- **A rollback restores the priority from before the last commit.**  In every run of proposals,
commits, rollbacks and `ai_task_set_priority`: a successful rollback sets the task of the last
successful commit to the priority it had before that commit, and writes nothing but links of other
tasks; every rollback has a commit of its own; and a commit moves a priority as far as
`CommitMoves` says. -/
theorem rollback_restores {clk : Nat → Nat} {h : List Entry} {w : World}
    (hr : Run clk PriorityCalls h w) :
    (∀ fuel nowNs s' sched',
      actionRollbackLast fuel clk nowNs w.autonomy w.sched = .done (.ok, s', sched') →
      ∃ older e newer a commitNs i, h = older ++ e :: newer ∧ e.effects = [.committed a commitNs] ∧
        (∀ e' ∈ newer, ∀ x ∈ e'.effects, x.turns = false) ∧
        e.before.sched.findTask a.actionId = some i ∧
        priority sched' i = priority e.before.sched i ∧
        ∀ j, j ≠ i → (sched'.taskPool j).unlinked = (w.sched.taskPool j).unlinked) ∧
    Matched (effectsOf h) ∧
    ∀ fuel env hasEval eval s' sched',
      actionCommitNext fuel clk env hasEval w.autonomy w.sched = .done ((.ok, eval), s', sched') →
      ∃ i, CommitMoves w.autonomy.actionQueue.front eval env w.sched sched' i := by
  refine ⟨fun fuel nowNs s' sched' hcall => ?_, hr.matched,
    fun fuel env hasEval eval s' sched' hcall =>
      (actionCommitNext_cases hcall).moves hr.queue_within⟩
  rcases actionRollbackLast_cases hcall with ⟨hst, -⟩ | ⟨j, -, hlast, -, hj, hwrite, -⟩
  · exact absurd rfl hst
  obtain ⟨e, a, commitNs, i, hp⟩ := hr.pending hlast
  obtain ⟨older, newer, hh, hquiet⟩ := hp.history
  have hctx : w.autonomy.rollbackCtx = _ := congrArg Record.ctx hp.record
  rw [hctx] at hj hwrite
  -- the task is still found where the commit found it
  obtain rfl : i = j := Option.some.inj (hp.found_now.symm.trans hj)
  exact ⟨older, e, newer, a, commitNs, i, hh, hp.effects, hquiet, hp.found, hwrite.priority_eq,
    hwrite.frame.tasks⟩

/-- A committed raise that is rolled back. -/
theorem rollback_restores_raise : ∃ s' sched', actionRollbackLast (MAX_TASKS + 1) stillClock 0
      raiseCommitted.2.autonomy raiseCommitted.2.sched = .done (.ok, s', sched') ∧
    priority raiseCommitted.2.sched 0 ≠ priority oneTask.sched 0 ∧
    ∃ e ∈ raiseCommitted.1, ∃ i, priority sched' i = priority e.before.sched i := by
  have hr : Run stillClock PriorityCalls raiseCommitted.1 raiseCommitted.2 :=
    run_raiseCommitted trivial trivial trivial
  obtain ⟨s', sched', hback⟩ : ∃ s' sched', actionRollbackLast (MAX_TASKS + 1) stillClock 0
      raiseCommitted.2.autonomy raiseCommitted.2.sched = .done (.ok, s', sched') := ⟨_, _, rfl⟩
  obtain ⟨older, e, newer, a, commitNs, i, hh, -, -, -, hprio, -⟩ :=
    (rollback_restores hr).1 _ _ _ _ hback
  exact ⟨s', sched', hback, by decide +kernel, e, by rw [hh]; simp, i, hprio⟩

/-- **A commit that nothing interrupts does not take itself back**: the score after it is that of
before, which the penalties leave between 150000 and 1000000. -/
theorem commit_scores_equal {fuel : Nat} {env : CommitEnv} {hasEval : Bool} {s s' : State}
    {reply : AiosStatus × Option PolicyEval}
    (hcall : actionCommitNext fuel clk env hasEval s sched = .done (reply, s', sched'))
    (hquiet : env.fragAfter = env.fragBefore) :
    s'.stats.rollbacks = s.stats.rollbacks ∧ ∀ eval ∈ reply.2,
      eval.afterScore = eval.beforeScore ∧ eval.rollbackTriggered = false ∧
      eval.beforeScore + penalties (collectLiveTelemetry env.fragBefore sched) = 1000000 ∧
      150000 ≤ eval.beforeScore := by
  obtain ⟨hscore, hge⟩ := computeEvalScore_add (collectLiveTelemetry env.fragBefore sched)
  unfold actionCommitNext at hcall
  split at hcall
  · cases hcall
    simp
  obtain ⟨⟨status, s₁, sched₁⟩, happly, hrest⟩ := bind_eq_done.mp hcall
  dsimp only at hrest
  rcases applyAction_cases happly with ⟨hst, rfl, rfl⟩ | ⟨i, rfl, happlies, rfl⟩
  · rw [if_pos hst] at hrest
    cases hrest
    exact ⟨rfl, by simp⟩
  rw [if_neg (fun hne => hne rfl)] at hrest
  simp only [recordCommit, hquiet, if_neg (happlies.not_worse _)] at hrest
  rw [happlies.telemetry_eq] at hrest
  split at hrest
  · cases hrest
    exact ⟨rfl, by simp⟩
  · cases hrest
    refine ⟨rfl, ?_⟩
    rintro eval ⟨⟩
    exact ⟨rfl, rfl, hscore, hge⟩

/-- The committed raise. -/
theorem commit_scores_equal_raise : ∃ r, actionCommitNext (MAX_TASKS + 1) stillClock stillEnv true
      raiseQueued.autonomy raiseQueued.sched = .done r ∧ r.1.2.isSome = true ∧
    ∀ eval ∈ r.1.2, eval.afterScore = eval.beforeScore := by
  have hret : (actionCommitNext (MAX_TASKS + 1) stillClock stillEnv true raiseQueued.autonomy
      raiseQueued.sched >>= fun r => .done r.1.2.isSome) = .done true := by
    decide +kernel
  obtain ⟨⟨reply, s', sched'⟩, hcall, hsome⟩ := bind_eq_done.mp hret
  exact ⟨_, hcall, done.inj hsome, fun eval he => ((commit_scores_equal hcall rfl).2 eval he).1⟩

end AiosKernel.Autonomy
