/-
# `AiosKernel.Sched.Charges` — what `ai_sched_tick` charges the current task

Each tick adds the time since the task was picked to `exec_time`, and that time
divided by the weight of the task to `vruntime`.

* The weight is the sum of a small number and of the priority, which nothing
  checks, in unsigned arithmetic.  It is the sum it should be exactly if the sum
  is positive; for a sum of zero the tick divides by zero, for a negative one the
  weight is close to 2^64.
* `last_scheduled` is not moved on by a tick, so a second tick of a run charges
  the time up to the first one again.  `exec_time` is the time a task has been
  running in every run whose ticks are each the first of a run to see time pass.
-/
import AiosKernel.Sched.Levels

namespace AiosKernel.Sched

open Word SchedState Outcome

/-! ## Weights -/

def IsInt32 (p : Int) : Prop := -2 ^ 31 ≤ p ∧ p < 2 ^ 31

/-- The priorities a call passes are 32-bit numbers. -/
def PriorityInt32 : Call → Prop
  | .create _ _ params _ => ∀ p, params = some p → IsInt32 p.priority
  | .setPriority _ priority => IsInt32 priority
  | _ => True

/-- Where `ai_sched_tick` on `s` charges the task `i`: the weight is in its range, the division is
defined, and `vruntime` moves on by no more than the elapsed time. -/
structure WeightSafe (clk : Nat → Nat) (s : SchedState) (i : Nat) : Prop where
  pos : 0 < calcWeight (s.taskPool i).sched
  le : calcWeight (s.taskPool i).sched ≤ baseWeight (s.taskPool i).sched.policy + 2 ^ 31
  defined : ∀ fuel, aiSchedTick fuel clk s ≠ .panic "Division Error"
  increment : ∀ fuel s', aiSchedTick fuel clk s = .done s' →
    ∃ n ≤ sub64 (s.now clk) (s.taskPool i).lastScheduled,
      (s'.taskPool i).vruntime = u64 ((s.taskPool i).vruntime + n)

section

variable {clk : Nat → Nat} {s s' : SchedState} {fuel i j : Nat} {c : Call} {r : Reply}

theorem baseWeight_le (policy : Nat) : baseWeight policy ≤ 128 := by
  unfold baseWeight
  split <;> decide

/-- The sum is taken in 64 bits: a negative one is close to 2^64. -/
theorem calcWeight_cases {params : SchedParams} (hp : IsInt32 params.priority) :
    0 < baseWeight params.policy + params.priority ∧
        (calcWeight params : Int) = baseWeight params.policy + params.priority ∨
      (baseWeight params.policy : Int) + params.priority = 0 ∧ calcWeight params = 0 ∨
      baseWeight params.policy + params.priority < 0 ∧ 2 ^ 63 < calcWeight params := by
  have hbase := baseWeight_le params.policy
  obtain ⟨hlow, hhigh⟩ := hp
  unfold calcWeight
  omega

theorem Acts.int32 (ha : Acts clk s c r s') (hok : PriorityInt32 c)
    (hs : ∀ j < s.taskPoolNext, IsInt32 (s.taskPool j).sched.priority) :
    ∀ j < s'.taskPoolNext, IsInt32 (s'.taskPool j).sched.priority := by
  intro j hj
  cases ha with
  | quiet _ _ steps =>
    rw [steps.sched_eq j]
    exact hs j (steps.poolNext_eq ▸ hj)
  | create room =>
    rw [aiTaskCreate_poolNext room] at hj
    rw [aiTaskCreate_taskPool clk _ _ _ room]
    split
    · exact hok _ rfl
    · exact hs j (by omega)
  | @setPriority _ k priority _ s₁ _ _ before after =>
    have hold := hs j (before.poolNext_eq ▸ after.poolNext_eq ▸ hj)
    rw [after.sched_eq j, prioritise, setTask_taskPool]
    split
    · exact hok
    · rwa [before.sched_eq j]
  | @pick _ k s₁ before =>
    rw [runTask_poolNext] at hj
    rw [runTask_sched, before.sched_eq j]
    exact hs j (before.poolNext_eq ▸ hj)
  | @tick k _ _ _ after =>
    rw [after.sched_eq j, charge_sched]
    exact hs j (after.poolNext_eq ▸ hj)

theorem Reach.int32 {h : List Event} (hr : Reach clk (fun _ _ => PriorityInt32) s h) :
    ∀ j < s.taskPoolNext, IsInt32 (s.taskPool j).sched.priority := by
  induction hr with
  | @init s hb =>
    intro j hj
    rw [show (aiSchedInit s).2.taskPoolNext = 0 from hb.taskPoolNext] at hj
    exact absurd hj (Nat.not_lt_zero j)
  | call hr hok hcall ih => exact (exec_acts hr.settled hcall).1.int32 hok ih

/-! ## One tick -/

theorem requeue_ne_panic (m : String) : requeue fuel clk s i ≠ .panic m := by
  intro h
  rcases bind_eq_panic.mp h with hlink | ⟨s₁, -, hrest⟩
  · unfold SchedState.link at hlink
    repeat' split at hlink
    all_goals cases hlink
  · cases hrest

theorem checkCurrent_ne_panic (n : Nat) :
    checkCurrent fuel clk s i n ≠ .panic "Division Error" := by
  intro h
  unfold checkCurrent at h
  split at h
  · exact requeue_ne_panic _ h
  · rcases bind_eq_panic.mp h with hsearch | ⟨b, -, hrest⟩
    · unfold higherWaiting at hsearch
      repeat' split at hsearch
      all_goals simp at hsearch
    · cases b with
      | true =>
        rcases bind_eq_panic.mp hrest with hrequeue | ⟨s₁, -, hdone⟩
        · exact requeue_ne_panic _ hrequeue
        · cases hdone
      | false => cases hrest

theorem checkCurrent_vruntime {n : Nat} (h : checkCurrent fuel clk s i n = .done s') :
    (s'.taskPool i).vruntime = (s.taskPool i).vruntime := by
  have hrequeue : ∀ s', requeue fuel clk s i = .done s' →
      (s'.taskPool i).vruntime = (s.taskPool i).vruntime := fun _ h =>
    enqueueTask_proj (π := AiTask.vruntime) (fun _ => rfl) (fun _ _ => rfl) h i
  unfold checkCurrent at h
  split at h
  · exact hrequeue s' h
  · obtain ⟨b, -, hrest⟩ := bind_eq_done.mp h
    cases b with
    | true =>
      obtain ⟨s₁, hcall, rfl⟩ := of_map hrest
      exact hrequeue s₁ hcall
    | false =>
      cases hrest
      rfl

/-- In every run with 32-bit priorities: the weight of the current task is in its range, and the
tick divides by it, if and only if weight and priority add up to a positive number. -/
theorem weight_safe_iff {h : List Event} (hr : Reach clk (fun _ _ => PriorityInt32) s h)
    (hcur : s.currentTask = some i) : WeightSafe clk s i ↔
      0 < (baseWeight (s.taskPool i).sched.policy : Int) + (s.taskPool i).sched.priority := by
  have hp := hr.int32 i (hr.settled.current i hcur)
  have hbase := baseWeight_le (s.taskPool i).sched.policy
  have hcases := calcWeight_cases hp
  constructor
  · intro hsafe
    have hpos := hsafe.pos
    have hle := hsafe.le
    omega
  · intro hsum
    obtain ⟨-, hhigh⟩ := hp
    have hpos : 0 < calcWeight (s.taskPool i).sched := by omega
    have htick := fun fuel => aiSchedTick_of_weight fuel clk hcur hpos.ne'
    refine ⟨hpos, by omega, fun fuel => ?_, fun fuel s' hdone => ?_⟩
    · rw [htick]
      exact checkCurrent_ne_panic _
    · rw [htick] at hdone
      refine ⟨_, Nat.div_le_self _ (calcWeight (s.taskPool i).sched),
        (checkCurrent_vruntime hdone).trans ?_⟩
      simp [charged, charge, setTask]

end

/-- The calls that make the first task run. -/
def firstRuns : List Call := [createInference, .submit 1, .pickNext]

theorem priorityInt32_firstRuns (cs : List Call) (hcs : ∀ c ∈ cs, PriorityInt32 c) :
    ∀ c ∈ firstRuns ++ cs, PriorityInt32 c := by
  intro c hc
  rcases List.mem_append.mp hc with hc | hc
  · simp only [firstRuns, List.mem_cons, List.not_mem_nil, or_false] at hc
    rcases hc with rfl | rfl | rfl
    · intro p hp
      cases hp
      exact ⟨by decide, by decide⟩
    · trivial
    · trivial
  · exact hcs c hc

theorem weight_safe_inference : ∃ s h, Reach stillClock (fun _ _ => PriorityInt32) s h ∧
    s.currentTask = some 0 ∧ WeightSafe stillClock s 0 := by
  obtain ⟨h, hr⟩ := reach_stateAfter (priorityInt32_firstRuns [] (by simp))
    (show allReturn stillClock _ = true by decide +kernel)
  exact ⟨_, h, hr, by decide +kernel, (weight_safe_iff hr (by decide +kernel)).mpr (by decide +kernel)⟩

/-- The priority -4 makes the weight of an inference task zero, the priority -5 makes it 2^64 - 1. -/
theorem priority_breaks_weight :
    (∃ s h, Reach stillClock (fun _ _ => PriorityInt32) s h ∧ s.currentTask = some 0 ∧
      ∀ fuel, aiSchedTick fuel stillClock s = .panic "Division Error") ∧
    ∃ s h, Reach stillClock (fun _ _ => PriorityInt32) s h ∧ s.currentTask = some 0 ∧
      calcWeight (s.taskPool 0).sched = 2 ^ 64 - 1 := by
  have hrun : ∀ p, IsInt32 p → allReturn stillClock (firstRuns ++ [.setPriority 1 p]) = true →
      ∃ h, Reach stillClock (fun _ _ => PriorityInt32)
        (stateAfter stillClock (firstRuns ++ [.setPriority 1 p])) h :=
    fun p hp => reach_stateAfter (priorityInt32_firstRuns _ (by simp [PriorityInt32, hp]))
  obtain ⟨h, hr⟩ := hrun (-4) ⟨by decide, by decide⟩ (by decide +kernel)
  obtain ⟨h', hr'⟩ := hrun (-5) ⟨by decide, by decide⟩ (by decide +kernel)
  refine ⟨⟨_, h, hr, by decide +kernel, fun fuel => ?_⟩, _, h', hr', by decide +kernel,
    by decide +kernel⟩
  exact aiSchedTick_of_weight_zero (i := 0) fuel stillClock (by decide +kernel) (by decide +kernel)

/-! ## Time -/

/-- The runs of a task, newest first as the marks are: when it was picked, and its last tick. -/
def runs (i : Nat) : List Mark → List (Nat × Nat)
  | [] => []
  | .picked j t :: log => if j = i then (t, t) :: runs i log else runs i log
  | .ticked j t :: log => if j = i then (runs i log).modifyHead fun r => (r.1, t) else runs i log

/-- The time a task has been running, as its ticks saw it. -/
def consumed (i : Nat) (log : List Mark) : Nat := ((runs i log).map fun r => sub64 r.2 r.1).sum

/-- A tick finds the current task in a run that no tick has seen last so far. -/
def TicksFresh (s : SchedState) (log : List Mark) : Call → Prop
  | .tick => ∀ i p q rest, s.currentTask = some i → runs i log = (p, q) :: rest → q = p
  | _ => True

/-- The times of the tasks are those of the marks. -/
structure Clocked (s : SchedState) (log : List Mark) : Prop where
  time : ∀ i < s.taskPoolNext, (s.taskPool i).execTime = u64 (consumed i log)
  start : ∀ i < s.taskPoolNext, ∀ r ∈ (runs i log).head?,
    (s.taskPool i).lastScheduled = r.1 ∧ r.1 < 2 ^ 64
  current : ∀ i ∈ s.currentTask, runs i log ≠ []
  fresh : ∀ i, s.taskPoolNext ≤ i → runs i log = []

section

variable {clk : Nat → Nat} {s s' : SchedState} {i j : Nat} {c : Call} {r : Reply} {log : List Mark}

theorem sub64_self {t : Nat} (ht : t < 2 ^ 64) : sub64 t t = 0 := by
  rw [sub64_eq (le_refl t) ht, Nat.sub_self]

theorem marks_eq_nil (hidle : c = .tick → s.currentTask = none)
    (hnone : ∀ i, r ≠ .picked (some i)) : marks clk s c r = [] := by
  cases c with
  | pickNext =>
    cases r with
    | picked task =>
      cases task with
      | none => rfl
      | some i => exact absurd rfl (hnone i)
    | _ => rfl
  | tick =>
    show s.currentTask.toList.map _ = []
    rw [hidle rfl]
    rfl
  | _ => rfl

def AiTask.times (t : AiTask) : Nat × Nat := (t.execTime, t.lastScheduled)

theorem Quiet.times_eq (h : Quiet clk s s') (j : Nat) :
    (s'.taskPool j).times = (s.taskPool j).times :=
  congrArg (fun c : Core => (c.execTime, c.lastScheduled)) (h.core_eq j)

section

variable (h : Clocked s log)
include h

theorem Clocked.keep (hpool : s.taskPoolNext ≤ s'.taskPoolNext)
    (hold : ∀ j < s.taskPoolNext, (s'.taskPool j).times = (s.taskPool j).times)
    (hnew : ∀ j, s.taskPoolNext ≤ j → j < s'.taskPoolNext → (s'.taskPool j).execTime = 0)
    (hcur : ∀ i, s'.currentTask = some i → s.currentTask = some i) : Clocked s' log where
  time j hj := by
    rcases Nat.lt_or_ge j s.taskPoolNext with hlt | hge
    · exact (congrArg Prod.fst (hold j hlt)).trans (h.time j hlt)
    · rw [hnew j hge hj, consumed, h.fresh j hge]
      rfl
  start j hj r hr := by
    rcases Nat.lt_or_ge j s.taskPoolNext with hlt | hge
    · obtain ⟨hlast, hbound⟩ := h.start j hlt r hr
      exact ⟨(congrArg Prod.snd (hold j hlt)).trans hlast, hbound⟩
    · rw [h.fresh j hge] at hr
      cases hr
  current i hi := h.current i (hcur i hi)
  fresh j hj := h.fresh j (hpool.trans hj)

theorem Clocked.keep_pool (hpool : s'.taskPoolNext = s.taskPoolNext)
    (hold : ∀ j, (s'.taskPool j).times = (s.taskPool j).times)
    (hcur : ∀ i, s'.currentTask = some i → s.currentTask = some i) : Clocked s' log :=
  h.keep hpool.symm.le (fun j _ => hold j)
    (fun _ hj hj' => absurd (hpool ▸ hj') hj.not_gt) hcur

/-- The newest run of one task is new or goes on; the others are what they were. -/
theorem Clocked.step {m : Mark} (p q : Nat) (rest : List (Nat × Nat))
    (hi : i < s.taskPoolNext) (hpool : s'.taskPoolNext = s.taskPoolNext)
    (hother : ∀ j, j ≠ i → (s'.taskPool j).core = (s.taskPool j).core)
    (hruns : ∀ j, runs j (m :: log) = if j = i then (p, q) :: rest else runs j log)
    (htime : (s'.taskPool i).execTime = u64 (sub64 q p + (rest.map fun r => sub64 r.2 r.1).sum))
    (hstart : (s'.taskPool i).lastScheduled = p ∧ p < 2 ^ 64)
    (hcur : ∀ k, s'.currentTask = some k → k = i ∨ s.currentTask = some k) :
    Clocked s' (m :: log) := by
  have hsame : ∀ j, j ≠ i → runs j (m :: log) = runs j log := fun j hj => by rw [hruns, if_neg hj]
  have hnew : runs i (m :: log) = (p, q) :: rest := by rw [hruns, if_pos rfl]
  refine ⟨fun j hj => ?_, fun j hj r hr => ?_, fun k hk => ?_, fun j hj => ?_⟩
  · by_cases hji : j = i
    · rw [hji, htime, consumed, hnew]
      rfl
    · rw [consumed, hsame j hji, ← consumed, ← h.time j (hpool ▸ hj)]
      exact congrArg Core.execTime (hother j hji)
  · by_cases hji : j = i
    · rw [hji, hnew] at hr
      cases hr
      exact hji ▸ hstart
    · rw [hsame j hji] at hr
      obtain ⟨hlast, hlt⟩ := h.start j (hpool ▸ hj) r hr
      exact ⟨(congrArg Core.lastScheduled (hother j hji)).trans hlast, hlt⟩
  · by_cases hki : k = i
    · rw [hki, hnew]
      exact List.cons_ne_nil _ _
    · rw [hsame k hki]
      exact h.current k ((hcur k hk).resolve_left hki)
  · have hji : j ≠ i := fun he => (hpool ▸ hj).not_gt (he ▸ hi)
    rw [hsame j hji]
    exact h.fresh j (hpool ▸ hj)

/-- A task is picked: a run begins, with no time in it. -/
theorem Clocked.pick {s₁ : SchedState} (hi : i < s.taskPoolNext)
    (before : Quiet clk s s₁) (readings : s₁.readings = s.readings)
    (hcur : ∀ k, (runTask clk s₁ i).currentTask = some k → k = i ∨ s.currentTask = some k) :
    Clocked (runTask clk s₁ i) (.picked i (s.now clk) :: log) := by
  have hnow : s₁.now clk = s.now clk := by
    rw [SchedState.now, SchedState.now, readings]
  have hlt : s.now clk < 2 ^ 64 := Nat.mod_lt _ (by decide)
  have hcore := runTask_core clk s₁ i i
  rw [if_pos rfl, before.core_eq i, hnow] at hcore
  have hlast : ((runTask clk s₁ i).taskPool i).lastScheduled = s.now clk :=
    congrArg Core.lastScheduled hcore
  refine h.step _ (s.now clk) (runs i log) hi
    (runTask_poolNext.trans before.poolNext_eq) (fun j hj => ?_) (fun j => ?_) ?_
    ⟨hlast, hlt⟩ hcur
  · rw [runTask_core, if_neg hj, before.core_eq j]
  · rw [runs]
    by_cases hj : j = i
    · rw [if_pos hj, if_pos hj.symm, hj]
    · rw [if_neg hj, if_neg fun he => hj he.symm]
  · rw [sub64_self hlt, Nat.zero_add]
    exact (congrArg Core.execTime hcore).trans (h.time i hi)

theorem Clocked.tick (hi : i < s.taskPoolNext) (current : s.currentTask = some i)
    (hok : ∀ p q rest, runs i log = (p, q) :: rest → q = p) (after : Quiet clk (charge clk s i) s')
    (hcur : ∀ k, s'.currentTask = some k → s.currentTask = some k) :
    Clocked s' (.ticked i (s.now clk) :: log) := by
  obtain ⟨⟨p, q⟩, rest, hrun⟩ := List.exists_cons_of_ne_nil (h.current i current)
  obtain rfl : q = p := hok p q rest hrun
  obtain ⟨hlast, hlt⟩ := h.start i hi (q, q) (by rw [hrun]; rfl)
  have hcore := charge_core clk s i i
  rw [if_pos rfl, ← after.core_eq i] at hcore
  refine h.step q (s.now clk) rest hi after.poolNext_eq (fun j hj => ?_) (fun j => ?_) ?_
    ⟨(congrArg Core.lastScheduled hcore).trans hlast, hlt⟩ (fun k hk => .inr (hcur k hk))
  · rw [after.core_eq j, charge_core, if_neg hj]
  · rw [runs]
    by_cases hj : j = i
    · rw [if_pos hj, if_pos hj.symm, hj, hrun]
      rfl
    · rw [if_neg hj, if_neg fun he => hj he.symm]
  · have htime := h.time i hi
    rw [consumed, hrun, List.map_cons, List.sum_cons, sub64_self hlt, Nat.zero_add] at htime
    refine (congrArg Core.execTime hcore).trans ?_
    rw [htime, hlast, u64, u64, u64, Nat.mod_add_mod, Nat.add_comm]

theorem Clocked.call {fuel : Nat} (hs : Settled s) (hok : TicksFresh s log c)
    (hcall : exec clk c s fuel = .done (r, s')) : Clocked s' (marks clk s c r ++ log) := by
  have hcur := fun k => exec_current (i := k) hs hcall
  have hold : (∀ i, r ≠ .picked (some i)) → ∀ k, s'.currentTask = some k → s.currentTask = some k :=
    fun hnone k hk => (hcur k hk).resolve_right (hnone k)
  have hnone : c ≠ .pickNext → ∀ i, r ≠ .picked (some i) := fun hc =>
    (exec_effect hs.current hc hcall).none_picked
  obtain ⟨hacts, -⟩ := exec_acts hs hcall
  have hpool := hacts.poolNext_le
  have hpicked := fun k (hk : r = .picked (some k)) => (hk ▸ hacts).picked_lt hs.leveled
  cases hacts with
  | quiet idle none_picked steps =>
    rw [marks_eq_nil idle none_picked]
    exact h.keep_pool steps.poolNext_eq steps.times_eq (hold none_picked)
  | @create name workload params _ room =>
    have htask := aiTaskCreate_taskPool clk name workload params room
    refine h.keep hpool (fun j hj => ?_) (fun j hj hj' => ?_) (hold (hnone nofun))
    · rw [htask, if_neg hj.ne]
    · rw [aiTaskCreate_poolNext room] at hj'
      rw [htask, if_pos (by omega)]
      rfl
  | @setPriority _ k priority _ s₁ _ _ before after =>
    refine h.keep_pool (after.poolNext_eq.trans before.poolNext_eq) (fun j => ?_)
      (hold (hnone nofun))
    have hwrite : ((prioritise s₁ k priority).taskPool j).times = (s₁.taskPool j).times := by
      refine setTask_keeps s₁ k j _ (π := AiTask.times) ?_
      exact fun _ => rfl
    rw [after.times_eq j, hwrite, before.times_eq j]
  | pick before readings head =>
    refine h.pick (hpicked _ rfl rfl) before readings fun k hk => ?_
    exact (hcur k hk).symm.imp_left fun he => (Option.some.inj (Reply.picked.inj he)).symm
  | @tick i _ _ current after =>
    have hmarks : marks clk s .tick r = [.ticked i (s.now clk)] := by
      show s.currentTask.toList.map _ = _
      rw [current]
      rfl
    rw [hmarks]
    exact h.tick (hs.current i current) current (fun p q rest => hok i p q rest current) after
      (hold (hnone nofun))

end

theorem Timed.clocked (hr : Timed clk TicksFresh s log) : Clocked s log := by
  induction hr with
  | @init s hb =>
    have hnone : (aiSchedInit s).2.taskPoolNext = 0 := hb.taskPoolNext
    refine ⟨fun j hj => ?_, fun j hj => ?_, fun i hi => (nomatch hi), fun _ _ => rfl⟩
    all_goals
      rw [hnone] at hj
      exact absurd hj (Nat.not_lt_zero j)
  | call hr hok hcall ih =>
    obtain ⟨h, hreach⟩ : ∃ h, Reach clk (fun _ _ _ => True) _ h := hr.reach fun _ _ _ _ _ => trivial
    exact ih.call hreach.settled hok hcall

/-- In every run whose ticks are each the first to see their run last: `exec_time` is the time the
task has been running, so that the deadline is compared with that time. -/
theorem exec_time_is_run_time (hr : Timed clk TicksFresh s log) (hi : i < s.taskPoolNext) :
    (s.taskPool i).execTime = u64 (consumed i log) ∧
      ∀ l, deadlineMissed l (s.taskPool i) = (l.val = 0 && 0 < (s.taskPool i).sched.deadlineNs &&
        (s.taskPool i).sched.deadlineNs < u64 (consumed i log)) := by
  have htime := hr.clocked.time i hi
  refine ⟨htime, fun l => ?_⟩
  rw [deadlineMissed, htime]

end

/-- A millisecond passes between two readings. -/
def millisClock : Nat → Nat := steadyClock 1000000

theorem ticksFresh_firstRuns :
    TicksFresh (stateAfter millisClock firstRuns) (timedAfter millisClock firstRuns).2 .tick := by
  intro i p q rest hi hrun
  obtain rfl : 0 = i := Option.some.inj ((show _ = some 0 by decide +kernel).symm.trans hi)
  have hone : runs 0 (timedAfter millisClock firstRuns).2 = [(2000000, 2000000)] := by
    decide +kernel
  rw [hone] at hrun
  cases hrun
  rfl

theorem exec_time_first_tick : ∃ s log, Timed millisClock TicksFresh s log ∧
    0 < s.taskPoolNext ∧ consumed 0 log = 1000000 ∧ (s.taskPool 0).execTime = 1000000 := by
  have hr : Timed millisClock TicksFresh (stateAfter millisClock firstRuns) _ :=
    timed_timedAfter (by simp [firstRuns, createInference, TicksFresh]) (by decide +kernel)
  obtain ⟨⟨r, s'⟩, hcall⟩ : ∃ p, exec millisClock .tick (stateAfter millisClock firstRuns)
      (MAX_TASKS + 1) = .done p := exists_done (by decide +kernel)
  obtain ⟨h, hreach⟩ : ∃ h, Reach _ (fun _ _ _ => True) _ h := hr.reach fun _ _ _ _ _ => trivial
  have hpool : 0 < s'.taskPoolNext :=
    lt_of_lt_of_le (by decide +kernel) (exec_acts hreach.settled hcall).1.poolNext_le
  have htimed := hr.call ticksFresh_firstRuns hcall
  have hconsumed : consumed 0 (marks millisClock (stateAfter millisClock firstRuns) .tick r ++
      (timedAfter millisClock firstRuns).2) = 1000000 := by
    show consumed 0 (List.map _ _ ++ _) = _
    decide +kernel
  refine ⟨s', _, htimed, hpool, hconsumed, ?_⟩
  rw [(exec_time_is_run_time htimed hpool).1, hconsumed]
  rfl

/-- Two ticks, one and two milliseconds after the task was picked: they charge three. -/
theorem second_tick_charges_twice : ∃ s log, Timed millisClock (fun _ _ _ => True) s log ∧
    s.currentTask = some 0 ∧ consumed 0 log = 2000000 ∧ (s.taskPool 0).execTime = 3000000 :=
  ⟨stateAfter millisClock (firstRuns ++ [.tick, .tick]), _,
    timed_timedAfter (fun _ _ _ _ => trivial) (by decide +kernel), by decide +kernel,
    by decide +kernel, by decide +kernel⟩

end AiosKernel.Sched
