/-
# `AiosKernel.Slm.Learning` — what the SLM orchestrator remembers of the plans

Three things follow from the plans that were submitted and applied.

* The observation of the applications, with the least and the greatest latency.  It
  is exact unless a latency of 0 was forgotten; no more plans are executed than the
  table has slots, so that its counters do not wrap.
* The learning profile.  Every event writes the record of one action, moves a total
  and computes the tuning anew.  So the totals are the sums over the actions
  (`Learning.Counted`), and the tuned values are those of the bias and the totals
  (`Learning.Tuned`).
* The rings that are recommended to an agent.  Their sizes go back to the tuned depth
  without being rounded to a power of two, and `ai_ring_valid_entries` takes nothing
  else.
-/
import AiosKernel.Slm.Scores
import AiosKernel.Syscall.InferRing
import Mathlib.Data.List.Perm.Subperm

namespace AiosKernel.Slm

open Health Slots Word

/-! ## The observation of the applications -/

/-- The world after calls, of which the last comes first. -/
def after (w : World) : List Call → World
  | [] => w
  | c :: cs => exec c (after w cs)

/-- The status and the latency that a call records, if it executes a plan. -/
def recorded (w : World) : Call → List (AiosStatus × Nat)
  | .apply planId env =>
    match (planApply env planId w.slm).1 with
    | (status, some _) => [(status, sub64 env.endNs env.startNs)]
    | _ => []
  | _ => []

/-- What calls recorded, the last first. -/
def history (w : World) : List Call → List (AiosStatus × Nat)
  | [] => []
  | c :: cs => recorded (after w cs) c ++ history w cs

/-- The observation tells the least and the greatest latency and how many there are. -/
structure Exact (o : PlanObservation) (h : List (AiosStatus × Nat)) : Prop where
  min : o.minLatencyNs = (h.map Prod.snd).min?.getD 0
  max : o.maxLatencyNs = (h.map Prod.snd).max?.getD 0
  count : o.applyOk + o.applyFailed = h.length

/-- What it always tells: the counts modulo `2 ^ 32`, the greatest latency, and the least one as
long as none is 0. -/
structure Observed (o : PlanObservation) (h : List (AiosStatus × Nat)) : Prop where
  ok : o.applyOk = u32 (h.countP (·.1 = .ok))
  failed : o.applyFailed = u32 (h.countP (·.1 ≠ .ok))
  max : o.maxLatencyNs = (h.map Prod.snd).max?.getD 0
  min : 0 ∉ h.map Prod.snd → o.minLatencyNs = (h.map Prod.snd).min?.getD 0
  zero : o.minLatencyNs = 0 ↔ (h.map Prod.snd).headD 0 = 0

/-- A call records one latency, or none, and then it changes the count of refusals at most. -/
theorem exec_planObs (c : Call) (w : World) :
    (recorded w c = [] ∧ ∃ n, (exec c w).slm.planObs = { w.slm.planObs with applyRejected := n }) ∨
      ∃ st l, recorded w c = [(st, l)] ∧
        (exec c w).slm.planObs = w.slm.planObs.recordApply st l := by
  cases c with
  | submit req nowNs =>
    refine .inl ⟨rfl, w.slm.planObs.applyRejected, ?_⟩
    show (planSubmit _ _ _ _).2.planObs = _
    unfold planSubmit
    split <;> rfl
  | apply planId env =>
    cases hfind : findPlan w.slm planId with
    | none =>
      simp only [recorded, exec, planApply, hfind]
      exact .inl ⟨trivial, _, rfl⟩
    | some slot =>
      by_cases hrefused : (w.slm.plans.getD slot Plan.zero).state ≠ .validated ∨
          (w.slm.plans.getD slot Plan.zero).request.allowApply = false
      · simp only [recorded, exec, planApply, hfind, if_pos hrefused]
        exact .inl ⟨trivial, _, rfl⟩
      · simp only [recorded, exec, planApply, hfind, if_neg hrefused]
        exact .inr ⟨_, _, rfl, rfl⟩
  | markHealth id state => exact .inl ⟨rfl, _, rfl⟩
  | changeMachine m => exact .inl ⟨rfl, _, rfl⟩

theorem Observed.record {o : PlanObservation} {h : List (AiosStatus × Nat)} (ho : Observed o h)
    (st : AiosStatus) (l : Nat) : Observed (o.recordApply st l) ((st, l) :: h) := by
  obtain ⟨hok, hfailed, hmax, hmin, hzero⟩ := ho
  refine ⟨?_, ?_, ?_, fun hne => ?_, ?_⟩
  · by_cases hst : st = .ok <;> simp [PlanObservation.recordApply, hst, hok, u32]
  · by_cases hst : st = .ok <;> simp [PlanObservation.recordApply, hst, hfailed, u32]
  · rw [List.map_cons, List.max?_cons]
    show (if o.maxLatencyNs < l then l else o.maxLatencyNs) = _
    rw [hmax]
    cases (h.map Prod.snd).max? with
    | none | some m =>
      dsimp only [Option.getD, Option.elim]
      split <;> omega
  · rw [List.map_cons, List.mem_cons, not_or] at hne
    have hold := hmin hne.2
    rw [List.map_cons, List.min?_cons]
    show (if o.minLatencyNs == 0 || l < o.minLatencyNs then l else o.minLatencyNs) = _
    cases hleast : (h.map Prod.snd).min? with
    | none =>
      rw [hleast] at hold
      simp [hold]
    | some m =>
      have hpos : m ≠ 0 := fun h0 => hne.2 (h0 ▸ List.min?_mem hleast)
      rw [hold, hleast]
      simp only [Option.getD, Option.elim, Bool.or_eq_true, beq_iff_eq, hpos, false_or,
        decide_eq_true_eq]
      split <;> omega
  · simp only [PlanObservation.recordApply, Bool.or_eq_true, beq_iff_eq, decide_eq_true_eq,
      List.map_cons, List.headD_cons]
    split <;> omega

section

variable (m : Machine) (learning : Learning) (rs : RuntimeState) (cs : List Call)

theorem observed_after : Observed (after ⟨m, init learning rs⟩ cs).slm.planObs
    (history ⟨m, init learning rs⟩ cs) := by
  induction cs with
  | nil => exact ⟨rfl, rfl, rfl, fun _ => rfl, .rfl⟩
  | cons c cs ih =>
    rcases exec_planObs c (after ⟨m, init learning rs⟩ cs) with
      ⟨hnone, n, heq⟩ | ⟨st, l, hone, heq⟩
    · rw [history, hnone, after, heq]
      exact { ih with }
    · rw [history, hone, after, heq]
      exact ih.record st l

theorem after_planRun :
    ∃ h, PlanRun (fun _ _ => True) h (after ⟨m, init learning rs⟩ cs) ∧
      (history ⟨m, init learning rs⟩ cs).length = (executedIds h).length := by
  induction cs with
  | nil => exact ⟨[], .init m learning rs, rfl⟩
  | cons c cs ih =>
    obtain ⟨h, hr, hlen⟩ := ih
    refine ⟨_, .call c hr trivial, ?_⟩
    rw [history, executedIds, List.filterMap_append, List.length_append, List.length_append, hlen]
    refine congrArg (· + _) ?_
    cases c with
    | submit req nowNs =>
      cases req with
      | none => rfl
      | some req =>
        simp only [recorded, planEvents]
        split <;> rfl
    | apply planId env =>
      rcases hreply : (planApply env planId (after ⟨m, init learning rs⟩ cs).slm).1 with ⟨status, req⟩
      cases req <;> simp [recorded, planEvents, hreply]
    | markHealth | changeMachine => rfl

theorem history_length_le :
    (history ⟨m, init learning rs⟩ cs).length ≤ SLM_PLAN_CAP := by
  obtain ⟨h, hr, hlen⟩ := after_planRun m learning rs cs
  have hsub : executedIds h ⊆ (after ⟨m, init learning rs⟩ cs).slm.plans.map Plan.planId := by
    intro planId hmem
    obtain ⟨p, hp, -, hid, -⟩ := hr.accounted.done planId hmem
    exact List.mem_map.mpr ⟨p, hp, hid⟩
  have hle := (List.Nodup.subperm hr.accounted.once hsub).length_le
  rw [List.length_map, hr.tabled.length_eq] at hle
  exact hlen ▸ hle

end

/-- **The observation is exact just when no latency of 0 came before a last one that is longer.** -/
theorem plan_observation_exact_iff (m : Machine) (learning : Learning) (rs : RuntimeState)
    (cs : List Call) :
    let h := history ⟨m, init learning rs⟩ cs
    Exact (after ⟨m, init learning rs⟩ cs).slm.planObs h ↔
      (0 ∈ h.map Prod.snd → (h.map Prod.snd).headD 0 = 0) := by
  intro h
  have hobserved : Observed _ h := observed_after m learning rs cs
  obtain ⟨hok, hfailed, hmax, hmin, hzero⟩ := hobserved
  have hlen : h.length = h.countP (·.1 = .ok) + h.countP (·.1 ≠ .ok) := by
    rw [h.length_eq_countP_add_countP (·.1 = .ok)]
    simp
  have hcap : h.length ≤ 16 := history_length_le m learning rs cs
  rw [u32_eq (by omega)] at hok hfailed
  constructor
  · rintro ⟨hleast, -, -⟩ hmem
    refine hzero.mp (hleast.trans ?_)
    exact congrArg (Option.getD · 0) (List.min?_eq_some_iff.mpr ⟨hmem, fun _ _ => Nat.zero_le _⟩)
  · intro hlast
    refine ⟨?_, hmax, by omega⟩
    by_cases hmem : 0 ∈ h.map Prod.snd
    · rw [hzero.mpr (hlast hmem), List.min?_eq_some_iff.mpr ⟨hmem, fun _ _ => Nat.zero_le _⟩]
      rfl
    · exact hmin hmem

/-- A plan is applied in no time and another one in a nanosecond: the least latency is 1. -/
theorem plan_observation_forgets_zero : ∃ m learning rs cs,
    history ⟨m, init learning rs⟩ cs = [(.ok, 1), (.ok, 0)] ∧
      (after ⟨m, init learning rs⟩ cs).slm.planObs.minLatencyNs = 1 :=
  ⟨workstation, booted.learning, booted.runtimeState, [.apply 2 ⟨0, 1, .ok⟩, .apply 1 stillEnv,
    .submit (some restartStorage) 0, .submit (some restartStorage) 0], by decide +kernel⟩

/-! ## The learning profile -/

/-- The profile that `slm_orchestrator_init` leaves. -/
def bootLearning (m : Machine) (d : DriverClasses) : Learning :=
  Learning.init.refreshBootObservation m d

/-- The record of an action is sound. -/
structure LearningEntry.Sound (e : LearningEntry) : Prop where
  confidence : e.confidence ≤ 100
  attempts : e.attempts = e.successes + e.failures
  timeouts : e.timeouts ≤ e.failures

variable {l l' : Learning} {n a b c : Nat} {action : Action} {f : LearningEntry → LearningEntry}

/-- What `Consistent` says of the tuning, in the form that the events keep. -/
structure Learning.Tuned (l : Learning) : Prop where
  tuned : l.recomputeTuning = l
  globalConfidence : l.globalConfidence ≤ 100
  bias : -2 ≤ l.ioAggressivenessBias ∧ l.ioAggressivenessBias ≤ 2

/-- What it says of the counters, none of which has wrapped after `n` events. -/
structure Learning.Counted (n : Nat) (l : Learning) : Prop where
  length : l.actions.length = SLM_ACTION_COUNT
  entries : ∀ e ∈ l.actions, e.Sound
  successes : (l.actions.map (·.successes)).sum = l.appliedSuccesses
  failures : (l.actions.map (·.failures)).sum = l.appliedFailures
  rejections : (l.actions.map (·.rejections)).sum = l.rejectedSubmissions
  events : l.appliedSuccesses + l.appliedFailures + l.rejectedSubmissions ≤ n

theorem clampU16_mem (v : Int) {lo hi : Nat} (h : lo ≤ hi) :
    lo ≤ clampU16 v lo hi ∧ clampU16 v lo hi ≤ hi := by
  simp only [clampU16, clamp]
  split_ifs <;> omega

/-- An event adds `a` successes, `b` failures and `c` rejections to the record of its action. -/
structure LearningEntry.Adds (a b c : Nat) (e e' : LearningEntry) : Prop where
  sound : e'.Sound
  successes : e'.successes = e.successes + a
  failures : e'.failures = e.failures + b
  rejections : e'.rejections = e.rejections + c

theorem sum_split {as bs : List LearningEntry} {e e' : LearningEntry} {g : LearningEntry → Nat}
    {k : Nat} (hg : g e' = g e + k) :
    ((as ++ e' :: bs).map g).sum = ((as ++ e :: bs).map g).sum + k := by
  simp only [List.map_append, List.map_cons, List.sum_append, List.sum_cons, hg]
  omega

theorem Learning.Counted.write (h : l.Counted n) (hvalid : action.valid = true)
    (hactions : l'.actions = l.actions.modify action.number f)
    (hf : ∀ e ∈ l.actions, LearningEntry.Adds a b c e (f e))
    (hs : l'.appliedSuccesses = l.appliedSuccesses + a)
    (hb : l'.appliedFailures = l.appliedFailures + b)
    (hr : l'.rejectedSubmissions = l.rejectedSubmissions + c) : l'.Counted (n + (a + b + c)) := by
  have hi : action.number < l.actions.length := h.length ▸ of_decide_eq_true hvalid
  obtain ⟨as, e, bs, hl, hlen⟩ : ∃ as e bs, l.actions = as ++ e :: bs ∧ as.length = action.number :=
    ⟨_, _, _, (by rw [← List.drop_eq_getElem_cons hi, List.take_append_drop]),
      List.length_take_of_le (Nat.le_of_lt hi)⟩
  rw [hl, ← hlen, modify_split] at hactions
  obtain ⟨hsound, hsucc, hfail, hrej⟩ := hf e (hl ▸ List.mem_append_right as List.mem_cons_self)
  have hevents := h.events
  refine ⟨?_, forall_written h.entries hl hactions hsound, ?_, ?_, ?_, by omega⟩
  · rw [← h.length, hactions, hl]
    simp
  · rw [hs, ← h.successes, hactions, hl, sum_split hsucc]
  · rw [hb, ← h.failures, hactions, hl, sum_split hfail]
  · rw [hr, ← h.rejections, hactions, hl, sum_split hrej]

theorem Learning.Counted.entry_le (h : l.Counted n) {e : LearningEntry} (he : e ∈ l.actions) :
    e.successes + e.failures ≤ n ∧ e.rejections ≤ n := by
  obtain ⟨as, bs, hl⟩ := List.append_of_mem he
  obtain ⟨-, -, hs, hb, hr, hevents⟩ := h
  simp only [hl, List.map_append, List.map_cons, List.sum_append, List.sum_cons] at hs hb hr
  omega

theorem Learning.Counted.mono {n' : Nat} (h : l.Counted n) (hle : n ≤ n') : l.Counted n' :=
  { h with events := Nat.le_trans h.events hle }

theorem Learning.Counted.recordSubmission (h : l.Counted n) (hn : n + 1 < 2 ^ 32)
    (action : Action) (accepted : Bool) : (l.recordSubmission action accepted).Counted (n + 1) := by
  unfold Learning.recordSubmission
  split
  · exact h.mono (Nat.le_succ n)
  · rename_i hrejected
    obtain ⟨hvalid, -⟩ : action.valid = true ∧ accepted = false := by simpa using hrejected
    have hevents := h.events
    refine h.write (a := 0) (b := 0) (c := 1) hvalid rfl (fun e he => ?_) rfl rfl
      (u32_eq (by omega))
    have hle := h.entry_le he
    obtain ⟨-, hattempts, htimeouts⟩ := h.entries e he
    exact ⟨⟨clampU8_le _, hattempts, htimeouts⟩, rfl, rfl, u32_eq (by omega)⟩

theorem Learning.Counted.recordResult (h : l.Counted n) (hn : n + 1 < 2 ^ 32) (action : Action)
    (status : AiosStatus) (latencyNs : Nat) :
    (l.recordResult action status latencyNs).Counted (n + 1) := by
  have hevents := h.events
  unfold Learning.recordResult
  split
  · exact h.mono (Nat.le_succ n)
  · rename_i hinvalid
    have hvalid : action.valid = true := by simpa using hinvalid
    split
    · refine h.write (a := 1) (b := 0) (c := 0) hvalid rfl (fun e he => ?_)
        (u32_eq (by omega)) rfl rfl
      have hle := h.entry_le he
      obtain ⟨-, hattempts, htimeouts⟩ := h.entries e he
      have hs : u32 (e.successes + 1) = e.successes + 1 := u32_eq (by omega)
      have ha : u32 (e.attempts + 1) = e.attempts + 1 := u32_eq (by omega)
      refine ⟨⟨?_, ?_, htimeouts⟩, hs, rfl, rfl⟩
      · dsimp only
        exact clampU8_le _
      · dsimp only
        omega
    · refine h.write (a := 0) (b := 1) (c := 0) hvalid rfl (fun e he => ?_) rfl
        (u32_eq (by omega)) rfl
      have hle := h.entry_le he
      obtain ⟨-, hattempts, htimeouts⟩ := h.entries e he
      have hb : u32 (e.failures + 1) = e.failures + 1 := u32_eq (by omega)
      have ha : u32 (e.attempts + 1) = e.attempts + 1 := u32_eq (by omega)
      have ht : u32 (e.timeouts + 1) = e.timeouts + 1 := u32_eq (by omega)
      refine ⟨⟨clampU8_le _, ?_, ?_⟩, rfl, hb, rfl⟩
      · dsimp only
        omega
      · dsimp only
        split <;> omega

theorem Learning.tuned_recompute (hglobal : l.globalConfidence ≤ 100)
    (hbias : -2 ≤ l.ioAggressivenessBias ∧ l.ioAggressivenessBias ≤ 2) : l.recomputeTuning.Tuned :=
  ⟨rfl, hglobal, hbias⟩

theorem Learning.Tuned.withActions (h : l.Tuned) (actions : List LearningEntry) :
    Learning.Tuned { l with actions := actions } :=
  ⟨congrArg (fun l : Learning => { l with actions := actions }) h.tuned, h.globalConfidence, h.bias⟩

theorem Learning.Tuned.recordSubmission (h : l.Tuned) (action : Action) (accepted : Bool) :
    (l.recordSubmission action accepted).Tuned := by
  have hglobal := h.globalConfidence
  unfold Learning.recordSubmission
  split
  · exact h
  · refine Learning.tuned_recompute ?_ h.bias
    dsimp only
    split <;> omega

theorem Learning.Tuned.recordResult (h : l.Tuned) (action : Action) (status : AiosStatus)
    (latencyNs : Nat) : (l.recordResult action status latencyNs).Tuned := by
  have hbias := h.bias
  unfold Learning.recordResult
  split
  · exact h
  · split <;> refine Learning.tuned_recompute ?_ ?_ <;> dsimp only
    · exact clampU8_le _
    · split
      · simp_all
        omega
      · exact hbias
    · exact clampU8_le _
    · split
      · simp_all
        omega
      · exact hbias

theorem Learning.Tuned.setConfidence (ht : l.Tuned) (hc : l.Counted n) (action : Action) (v : Int) :
    (l.setConfidence action (clampU8 v)).Tuned ∧
      (l.setConfidence action (clampU8 v)).Counted n := by
  unfold Learning.setConfidence
  split
  · exact ⟨ht, hc⟩
  · rename_i hinvalid
    refine ⟨ht.withActions _, hc.write (a := 0) (b := 0) (c := 0) (by simpa using hinvalid) rfl
      (fun e he => ?_) rfl rfl rfl⟩
    obtain ⟨-, hattempts, htimeouts⟩ := hc.entries e he
    exact ⟨⟨clampU8_le _, hattempts, htimeouts⟩, rfl, rfl, rfl⟩

/-! ### Runs -/

/-- The call is a submission or an application. -/
def Call.onPlan : Call → Bool
  | .submit _ _ | .apply _ _ => true
  | _ => false

/-- What a call does to the learning profile. -/
theorem exec_learning (c : Call) (w : World) :
    (exec c w).slm.learning = w.slm.learning ∨
      c.onPlan = true ∧ ((∃ action accepted,
        (exec c w).slm.learning = w.slm.learning.recordSubmission action accepted) ∨
        ∃ action status latencyNs,
          (exec c w).slm.learning = w.slm.learning.recordResult action status latencyNs) := by
  cases c with
  | submit req nowNs =>
    simp only [exec, planSubmit]
    split
    · exact .inr ⟨rfl, .inl ⟨_, _, rfl⟩⟩
    · exact .inl rfl
  | apply planId env =>
    simp only [exec, planApply]
    split
    · exact .inl rfl
    · split
      · exact .inr ⟨rfl, .inl ⟨_, _, rfl⟩⟩
      · exact .inr ⟨rfl, .inr ⟨_, _, _, rfl⟩⟩
  | markHealth | changeMachine => exact .inl rfl

section

variable (m : Machine) (d : DriverClasses) (rs : RuntimeState) (cs : List Call)

theorem bootLearning_sound : (bootLearning m d).Tuned ∧ (bootLearning m d).Counted 0 := by
  refine List.foldlRecOn (motive := fun l : Learning => l.Tuned ∧ l.Counted 0) _ _
    ⟨Learning.tuned_recompute (clampU8_le _) ?_, rfl, ?_, rfl, rfl, rfl, le_rfl⟩
    fun l h v _ => h.1.setConfidence h.2 v.1 v.2
  · simp only [clampI8, clamp]
    split_ifs <;> omega
  · intro e he
    rw [List.eq_of_mem_replicate he]
    exact ⟨by decide, rfl, le_rfl⟩

theorem tuned_after : (after ⟨m, init (bootLearning m d) rs⟩ cs).slm.learning.Tuned := by
  induction cs with
  | nil => exact (bootLearning_sound m d).1
  | cons c cs ih =>
    rcases exec_learning c (after ⟨m, init (bootLearning m d) rs⟩ cs) with
      hsame | ⟨-, ⟨_, _, hsub⟩ | ⟨_, _, _, hres⟩⟩
    · rw [after, hsame]
      exact ih
    · rw [after, hsub]
      exact ih.recordSubmission _ _
    · rw [after, hres]
      exact ih.recordResult _ _ _

end

/-- All three drivers of the workstation are up. -/
def workstationDrivers : DriverClasses :=
  ⟨some ⟨.activeIo, true⟩, some ⟨.controlReady, false⟩, some ⟨.controlReady, false⟩⟩

/-- `compute_agent_main_profile` chooses to explore. -/
def explores (m : Machine) (l : Learning) : Bool :=
  (computeAgentMainProfile m l (getSummary m.health) (computeFabricProfile m)
    (computeIoProfile m l)).mode == .explore

/-- The depth of the worker queues that `compute_agent_pipeline_profile` recommends. -/
def workerQueueDepth (m : Machine) (l : Learning) : Nat :=
  clampU16 (((computeIoProfile m l).recommendedQueueDepth / 2 : Nat) +
    if explores m l then 4 else 0) 2 32

def submitRingEntries (depth : Nat) : Nat := clampU16 (depth * 8 : Nat) 64 1024

def completionRingEntries (depth : Nat) : Nat := clampU16 (depth * 4 : Nat) 64 1024

/-- `sys_infer_ring_setup` takes both numbers of entries. -/
def ringsAccepted (depth : Nat) : Bool :=
  Syscall.aiRingValidEntries (submitRingEntries depth) &&
    Syscall.aiRingValidEntries (completionRingEntries depth)

theorem clampU16_eq {v : Int} (hv : FitsI32 v) {lo hi : Nat} (h : lo ≤ hi) :
    (clampU16 v lo hi : Int) = max (lo : Int) (min v hi) := by
  have hexact : i32 v = v := Int.bmod_eq_of_le hv.1 hv.2
  simp only [clampU16, clamp, hexact]
  split_ifs <;> omega

/-- The queue depths from which the recommended rings come out as powers of two. -/
def DepthFits (explore : Bool) (depth : Nat) : Prop :=
  if explore then depth ≤ 9 ∨ depth = 24 ∨ depth = 25 ∨ 56 ≤ depth
  else depth ≤ 17 ∨ depth = 32 ∨ depth = 33 ∨ 64 ≤ depth

theorem ringsAccepted_iff {m : Machine}
    (hdepth : (computeIoProfile m l).recommendedQueueDepth < 2 ^ 16) :
    ringsAccepted (workerQueueDepth m l) = true ↔
      DepthFits (explores m l) (computeIoProfile m l).recommendedQueueDepth := by
  have hall : ∀ d ≤ 32, ringsAccepted d = true ↔ d ≤ 8 ∨ d = 16 ∨ d = 32 := by decide +kernel
  have hle : workerQueueDepth m l ≤ 32 := (clampU16_mem _ (by decide)).2
  rw [hall _ hle, DepthFits]
  split
  all_goals
    rename_i hmode
    have hclamp : (workerQueueDepth m l : Int) = _ :=
      clampU16_eq ⟨by split <;> omega, by split <;> omega⟩ (by decide)
    simp only [hmode, if_true, Bool.false_eq_true, if_false] at hclamp
    omega

/-- The depth `compute_io_profile` takes from the drivers, or else from the mode. -/
def driverQueueDepth (m : Machine) : Nat :=
  if m.drivers.queueDepthHint ≠ 0 then m.drivers.queueDepthHint
  else (ioModeDefaults m (computeFabricProfile m) (m.drivers.readyCount % 2 ^ 8)
    (m.drivers.degradedCount % 2 ^ 8)).1

/-- How far the bias and the balance of successes and failures move the tuned depth. -/
def Learning.pace (l : Learning) : Int :=
  l.ioAggressivenessBias +
    if u32 (l.appliedFailures + 1) < l.appliedSuccesses then 1
    else if l.appliedSuccesses < l.appliedFailures then -1
    else 0

theorem driverQueueDepth_lt {m : Machine} (hhint : m.drivers.queueDepthHint < 2 ^ 16) :
    driverQueueDepth m < 2 ^ 16 := by
  simp only [driverQueueDepth, ioModeDefaults]
  split_ifs <;> first | exact hhint | decide

theorem Learning.Tuned.pace_mem (h : l.Tuned) : -3 ≤ l.pace ∧ l.pace ≤ 3 := by
  have hbias := h.bias
  rw [Learning.pace]
  split_ifs <;> omega

theorem Learning.Tuned.queueDepth_eq (h : l.Tuned) : (l.tunedQueueDepth : Int) =
    max 8 (16 + l.pace * 4 - if 2 < l.rejectedSubmissions then 2 else 0) := by
  have hbias := h.bias
  rw [← h.tuned, Learning.recomputeTuning, Learning.pace]
  dsimp only
  rw [clampU16_eq ⟨by split_ifs <;> omega, by split_ifs <;> omega⟩ (by decide)]
  split_ifs <;> omega

theorem Learning.Tuned.recommendedQueueDepth_eq (h : l.Tuned) (m : Machine) :
    (computeIoProfile m l).recommendedQueueDepth =
      if l.globalConfidence = 0 then driverQueueDepth m else l.tunedQueueDepth := by
  have hpos : 8 ≤ l.tunedQueueDepth ∧ l.tunedQueueDepth ≤ 48 := by
    rw [← h.tuned]
    exact clampU16_mem _ (by decide)
  have hclamp : (clampU16 l.tunedQueueDepth 8 64 : Int) = _ :=
    clampU16_eq ⟨by omega, by omega⟩ (by decide)
  simp only [computeIoProfile, driverQueueDepth]
  split_ifs <;> omega

/-- **The recommended rings are accepted just when the tuned depth is low enough**: the pace is not
above 0, or, where the agent explores, it is below -1 or it is 2 without many rejections.  Without
confidence in the tuning it is the depth of the drivers that counts. -/
theorem recommended_rings_accepted_iff (m : Machine) (d : DriverClasses) (rs : RuntimeState)
    (cs : List Call) :
    let w := after ⟨m, init (bootLearning m d) rs⟩ cs
    let l := w.slm.learning
    w.machine.drivers.queueDepthHint < 2 ^ 16 →
    (ringsAccepted (workerQueueDepth w.machine l) = true ↔
      if l.globalConfidence = 0 then DepthFits (explores w.machine l) (driverQueueDepth w.machine)
      else if explores w.machine l then l.pace ≤ -2 ∨ l.pace = 2 ∧ l.rejectedSubmissions ≤ 2
      else l.pace ≤ 0) := by
  intro w l hhint
  have ht : l.Tuned := tuned_after m d rs cs
  have hdepth := ht.recommendedQueueDepth_eq w.machine
  by_cases hzero : l.globalConfidence = 0
  · rw [if_pos hzero] at hdepth ⊢
    rw [ringsAccepted_iff (hdepth ▸ driverQueueDepth_lt hhint), hdepth]
  · rw [if_neg hzero] at hdepth ⊢
    have hqueue := ht.queueDepth_eq
    obtain ⟨hlow, hhigh⟩ := ht.pace_mem
    rw [ringsAccepted_iff (by split at hqueue <;> omega), hdepth, DepthFits]
    split <;> split at hqueue <;> omega

/-- A plan for storage is submitted and applied, and the driver returns this. -/
def onePlan (returned : AiosStatus) : List Call :=
  [.apply 1 ⟨0, 1, returned⟩, .submit (some restartStorage) 0]

/-- After a timeout the rings are small. -/
theorem recommended_rings_accepted_timeout :
    let w := after ⟨workstation, init (bootLearning workstation workstationDrivers) .ready⟩
      (onePlan .errTimeout)
    w.slm.learning.appliedFailures = 1 ∧
      ringsAccepted (workerQueueDepth w.machine w.slm.learning) = true := by
  refine ⟨by decide +kernel, (recommended_rings_accepted_iff workstation workstationDrivers .ready
    (onePlan .errTimeout) (by decide +kernel)).mpr ?_⟩
  rw [if_neg (by decide +kernel), if_neg (by decide +kernel)]
  decide +kernel

/-- After a success a ring of 96 entries is recommended. -/
theorem recommended_rings_refused :
    let w := after ⟨workstation, init (bootLearning workstation workstationDrivers) .ready⟩
      (onePlan .ok)
    submitRingEntries (workerQueueDepth w.machine w.slm.learning) = 96 ∧
      ringsAccepted (workerQueueDepth w.machine w.slm.learning) = false := by
  decide +kernel

end AiosKernel.Slm
