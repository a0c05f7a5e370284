/-
# `AiosKernel.Sched.Fairness` — two tasks of one policy that take turns

Two tasks of one policy wait.  Each round picks one of them, and a tick after a
full time slice puts it back.  Such rounds are a race of two strides: the task
that has run moves on by the time divided by its weight.

The weight is the base weight of the policy *plus* the priority, so the smaller
number, which is the higher priority, has the larger stride, and the task of the
lower priority comes to run more often.
-/
import AiosKernel.Lib.Stride
import AiosKernel.Sched.Charges
import AiosKernel.Sched.Pick

namespace AiosKernel.Sched

open Word SchedState List Function
open Stride (Within race race_within_one_iff)

/-- Two tasks wait at level `l`, and no other waits at all. -/
def Waiting (s : SchedState) (l : Level) (a b : Nat) : Prop :=
  Lists s (update (fun _ => []) l [a, b])

/-- Rounds of a pick and a tick, and the tasks picked.  In every round the tasks `x` and `y` are
runnable, and the time `d` passes until the tick. -/
inductive Rounds (clk : Nat → Nat) (d x y : Nat) : SchedState → List Nat → Prop where
  | done (s : SchedState) : Rounds clk d x y s []
  | round {s s₁ s₂ : SchedState} {i fuel : Nat} {picks : List Nat}
      (runnable : ∀ j ∈ [x, y], deadlineMissed (s.level j) (s.taskPool j) = false)
      (pick : aiSchedPickNext clk s = (some i, s₁))
      (elapsed : sub64 (s₁.now clk) (s₁.taskPool i).lastScheduled = d)
      (tick : aiSchedTick fuel clk s₁ = .done s₂) (rest : Rounds clk d x y s₂ picks) :
      Rounds clk d x y s (i :: picks)

/-- By how much `vruntime` grows in a tick after the time `d`. -/
def stride (d : Nat) (params : SchedParams) : Nat := d / calcWeight params

/-- What decides when a task runs. -/
def AiTask.pace (t : AiTask) : SchedParams × Nat := (t.sched, t.vruntime)

section

variable {clk : Nat → Nat} {s s₁ s₂ : SchedState} {l : Level} {a b d fuel i u v x y : Nat}
  {p q : SchedParams}

/-! ## One round -/

theorem level_of_pace (h : (s.taskPool a).pace = (p, u)) : s.level a = queueLevel p.policy :=
  congrArg (fun t : SchedParams × Nat => queueLevel t.1.policy) h

theorem Relinked.pace (h : Relinked s s₁) (j : Nat) :
    (s₁.taskPool j).pace = (s.taskPool j).pace := by
  show (s₁.taskPool j).unlinked.pace = (s.taskPool j).unlinked.pace
  rw [h.tasks j]

theorem Waiting.ne (h : Waiting s l a b) : a ≠ b := by
  have hnodup := (h.links l).nodup
  simpa using hnodup

theorem Waiting.lowestHead_eq (h : Waiting s l a b) : lowestHead s = some a := by
  have hhead : s.runQueues l = some a := by
    rw [(h.links l).head_eq, update_self]
    rfl
  cases hlow : lowestHead s with
  | none =>
    have hnone := findSome?_eq_none_iff.mp hlow l (mem_finRange l)
    rw [hhead] at hnone
    cases hnone
  | some j =>
    obtain ⟨l', -, hl'⟩ := exists_of_findSome?_eq_some hlow
    by_cases hl : l' = l
    · rw [← hl', hl, hhead]
    · rw [(h.links l').head_eq, update_of_ne hl] at hl'
      cases hl'

theorem Waiting.pick (h : Waiting s l a b) (hmeets : deadlineMissed l (s.taskPool a) = false) :
    aiSchedPickNext clk s = (some a, runTask clk s a) := by
  rw [aiSchedPickNext_of_meets, h.lowestHead_eq]
  · rfl
  · intro j hj
    obtain rfl : j = a := Option.some.inj ((lowestHead_of_some hj).symm.trans h.lowestHead_eq)
    rw [(h.links realtime).head_eq] at hj
    by_cases hl : realtime = l
    · exact hl ▸ hmeets
    · rw [update_of_ne hl] at hj
      cases hj

/-- What the pick and the charge of the tick write in other tasks is what `dequeue_task` writes. -/
theorem charged_runTask_of_ne {j : Nat} (hj : j ≠ a) :
    (charged clk (runTask clk s a) a).taskPool j = (s.dequeueTask a).taskPool j := by
  show (charge clk (runTask clk s a) a).taskPool j = _
  rw [charge, setTask_taskPool, if_neg hj, runTask_taskPool, setTask_taskPool, if_neg hj]
  rfl

theorem charged_runTask_pace (hpace : (s.taskPool a).pace = (p, u))
    (helapsed : sub64 ((runTask clk s a).now clk) ((runTask clk s a).taskPool a).lastScheduled = d) :
    ((charged clk (runTask clk s a) a).taskPool a).pace = (p, u64 (u + stride d p)) := by
  have hrun : ((runTask clk s a).taskPool a).pace = (p, u) := by
    rw [runTask_taskPool, setTask_taskPool, if_pos rfl, ← hpace]
    exact (Relinked.dequeueTask s a).pace a
  obtain ⟨hsched, hvruntime⟩ := Prod.mk.inj hrun
  show ((charge clk (runTask clk s a) a).taskPool a).pace = _
  rw [charge, setTask_taskPool, if_pos rfl]
  simp only [AiTask.pace, helapsed, hsched, hvruntime, stride]

theorem Lists.enqueueTask {Q : Level → List Nat} (h : Lists s Q) (hi : ∀ l, i ∉ Q l)
    (hs : (Q (s.level i)).Pairwise (RanLess s)) (hlen : (Q (s.level i)).length ≤ MAX_TASKS)
    (hcall : s.enqueueTask fuel clk i = .done s₂) :
    ∃ as bs, Q (s.level i) = as ++ bs ∧ (∀ j ∈ as, RanLess s j i) ∧ (∀ j ∈ bs, ¬ RanLess s j i) ∧
      Lists s₂ (update Q (s.level i) (as ++ i :: bs)) := by
  obtain ⟨s₁, hlink, hrest⟩ := Outcome.bind_eq_done.mp hcall
  obtain ⟨s', as, bs, hends, hQ, has, hbs, hlists, -⟩ := h.link hi hs hlen
  obtain rfl := hends.eq hlink
  cases hrest
  let stamp := fun t : AiTask => { t with state := .ready, lastReadyNs := s₁.now clk }
  refine ⟨as, bs, hQ, has, hbs, hlists.congr rfl fun l j _ => ⟨?_, ?_⟩⟩
  · exact setTask_keeps (π := AiTask.next) (s₁.setSize _ _) i j stamp fun _ => rfl
  · exact setTask_keeps (π := AiTask.prev) (s₁.setSize _ _) i j stamp fun _ => rfl

/-- With the other one alone on the queue, the task picked goes back behind it, unless it has run
less. -/
theorem Waiting.requeue (h : Waiting s l a b) (hl : s.level a = l)
    (hcall : s₁.enqueueTask fuel clk a = .done s₂) (hl₁ : s₁.level a = l)
    (hheads : s₁.runQueues = (s.dequeueTask a).runQueues)
    (hpool : s₁.taskPool b = (s.dequeueTask a).taskPool b) :
    RanLess s₁ b a ∧ Waiting s₂ l b a ∨ ¬ RanLess s₁ b a ∧ Waiting s₂ l a b := by
  have hlists : Lists s₁ (update (fun _ => []) l [b]) := by
    have hline : update (fun _ => []) l [a, b] (s.level a) = [] ++ a :: [b] := by
      rw [hl, update_self]
      rfl
    have hout := (Lists.dequeueTask h hline).1
    rw [hl, update_idem] at hout
    refine hout.congr hheads fun l' j hj => ?_
    obtain rfl : j = b := by
      rw [update_apply] at hj
      split at hj
      · exact mem_singleton.mp hj
      · cases hj
    simp [SchedState.next, SchedState.prev, hpool]
  obtain ⟨as, bs, hQ, has, hbs, hline⟩ := hlists.enqueueTask
    (fun l' => by rw [update_apply]; split <;> simp [h.ne])
    (by rw [hl₁, update_self]; exact pairwise_singleton _ _)
    (by rw [hl₁, update_self]; exact Nat.le_of_ble_eq_true rfl) hcall
  rw [hl₁, update_self] at hQ
  rw [hl₁, update_idem] at hline
  rcases singleton_eq_append_iff.mp hQ with ⟨rfl, rfl⟩ | ⟨rfl, rfl⟩
  · exact .inr ⟨hbs b (mem_singleton_self b), hline⟩
  · exact .inl ⟨has b (mem_singleton_self b), hline⟩

theorem Waiting.round (h : Waiting s l a b) (hl : queueLevel p.policy = l)
    (ha : (s.taskPool a).pace = (p, u)) (hb : (s.taskPool b).pace = (q, v))
    (hslice : p.timeSliceNs ≤ d) (hwrap : u + stride d p < 2 ^ 64)
    (hmeets : deadlineMissed (s.level a) (s.taskPool a) = false)
    (hpick : aiSchedPickNext clk s = (some i, s₁))
    (helapsed : sub64 (s₁.now clk) (s₁.taskPool i).lastScheduled = d)
    (htick : aiSchedTick fuel clk s₁ = .done s₂) :
    i = a ∧ (s₂.taskPool a).pace = (p, u + stride d p) ∧ (s₂.taskPool b).pace = (q, v) ∧
      (v ≤ u + stride d p ∧ Waiting s₂ l b a ∨ u + stride d p < v ∧ Waiting s₂ l a b) := by
  have hlevel := (level_of_pace ha).trans hl
  obtain ⟨hi, rfl⟩ := Prod.mk.inj ((h.pick (hlevel ▸ hmeets)).symm.trans hpick)
  cases hi
  have hcharged := charged_runTask_pace ha helapsed
  rw [u64_eq hwrap] at hcharged
  have hother : ((charged clk (runTask clk s a) a).taskPool b).pace = (q, v) := by
    rw [charged_runTask_of_ne h.ne.symm, (Relinked.dequeueTask s a).pace b, hb]
  have hcur : (runTask clk s a).currentTask = some a := rfl
  have hweight : calcWeight ((runTask clk s a).taskPool a).sched ≠ 0 := by
    intro hzero
    rw [aiSchedTick_of_weight_zero fuel clk hcur hzero] at htick
    cases htick
  have hslice' : ((charged clk (runTask clk s a) a).taskPool a).sched.timeSliceNs ≤ d := by
    rw [(Prod.mk.inj hcharged).1]
    exact hslice
  rw [aiSchedTick_of_weight fuel clk hcur hweight, helapsed, checkCurrent, if_pos hslice'] at htick
  have hcall : { charged clk (runTask clk s a) a with currentTask := none }.enqueueTask fuel clk a =
      .done s₂ := htick
  have hpace (j : Nat) : (s₂.taskPool j).pace =
      ((charged clk (runTask clk s a) a).taskPool j).pace :=
    enqueueTask_proj (fun _ => rfl) (fun _ _ => rfl) hcall j
  refine ⟨rfl, (hpace a).trans hcharged, (hpace b).trans hother, ?_⟩
  have hline := h.requeue hlevel hcall ((level_of_pace hcharged).trans hl) (funext fun l' =>
    runTask_runQueues.trans (dequeueTask_runQueues l').symm)
    (charged_runTask_of_ne h.ne.symm)
  have hran : RanLess (charged clk (runTask clk s a) a) b a ↔ v ≤ u + stride d p := by
    rw [RanLess, (Prod.mk.inj hcharged).2, (Prod.mk.inj hother).2]
  exact hline.imp (And.imp_left hran.mp) (And.imp_left fun h => not_le.mp (mt hran.mpr h))

/-! ## Many rounds -/

/-- Both wait, and `first` says whether `x` is the head. -/
def InLine (s : SchedState) (l : Level) (x y : Nat) : Bool → Prop
  | true => Waiting s l x y
  | false => Waiting s l y x

theorem Rounds.eq_race {picks : List Nat} {first : Bool} (h : Rounds clk d x y s picks)
    (hline : InLine s l x y first) (hpl : queueLevel p.policy = l) (hql : queueLevel q.policy = l)
    (hx : (s.taskPool x).pace = (p, u)) (hy : (s.taskPool y).pace = (q, v))
    (hp : p.timeSliceNs ≤ d) (hq : q.timeSliceNs ≤ d)
    (hu : u + picks.length * stride d p < 2 ^ 64) (hv : v + picks.length * stride d q < 2 ^ 64) :
    picks = race x y (stride d p) (stride d q) picks.length u v first := by
  induction h generalizing first u v with
  | done s => cases first <;> rfl
  | @round s s₁ s₂ i fuel picks runnable pick elapsed tick rest ih =>
    rw [length_cons, Nat.succ_mul] at hu hv
    cases first with
    | true =>
      obtain ⟨rfl, hx', hy', hnext⟩ := Waiting.round hline hpl hx hy hp (by omega)
        (runnable x (by simp)) pick elapsed tick
      have hline' : InLine s₂ l i y (decide (u + stride d p < v)) := by
        rcases hnext with ⟨hle, hnext⟩ | ⟨hlt, hnext⟩
        · rwa [decide_eq_false hle.not_gt]
        · rwa [decide_eq_true hlt]
      exact congrArg (i :: ·) (ih hline' hx' hy' (by omega) (by omega))
    | false =>
      obtain ⟨rfl, hy', hx', hnext⟩ := Waiting.round hline hql hy hx hq (by omega)
        (runnable y (by simp)) pick elapsed tick
      have hline' : InLine s₂ l x i (!decide (v + stride d q < u)) := by
        rcases hnext with ⟨hle, hnext⟩ | ⟨hlt, hnext⟩
        · rwa [decide_eq_false hle.not_gt]
        · rwa [decide_eq_true hlt]
      exact congrArg (i :: ·) (ih hline' hx' hy' (by omega) (by omega))

theorem stride_antitone (hpolicy : p.policy = q.policy) (hp : 0 ≤ p.priority)
    (hpq : p.priority < q.priority) (hq : q.priority ≤ 255) : stride d q ≤ stride d p := by
  have hpos : 0 < baseWeight p.policy := by
    unfold baseWeight
    split <;> decide
  have hle := baseWeight_le p.policy
  refine Nat.div_le_div_left ?_ ?_
  · rw [calcWeight, calcWeight, ← hpolicy]
    omega
  · rw [calcWeight]
    omega

/-- Two tasks of one policy take turns, with any number of rounds in which no `vruntime` wraps
around.  The one with the higher priority is never picked more than once less often than the other
if and only if its `vruntime` cannot come to be ahead. -/
theorem priority_favoured_iff {picks : List Nat}
    (hwait : Waiting s l x y ∧ RanLess s x y ∨ Waiting s l y x ∧ RanLess s y x)
    (hlevel : s.level x = l) (hpolicy : (s.taskPool x).sched.policy = (s.taskPool y).sched.policy)
    (hpriority : 0 ≤ (s.taskPool x).sched.priority ∧
      (s.taskPool x).sched.priority < (s.taskPool y).sched.priority ∧
      (s.taskPool y).sched.priority ≤ 255)
    (hslice : ∀ j ∈ [x, y], (s.taskPool j).sched.timeSliceNs ≤ d)
    (hrounds : Rounds clk d x y s picks)
    (hwrap : ∀ j ∈ [x, y], (s.taskPool j).vruntime +
      picks.length * stride d (s.taskPool j).sched < 2 ^ 64) :
    (∀ k, (picks.take k).count y ≤ (picks.take k).count x + 1) ↔
      picks.length < 2 ∨
        (s.taskPool x).vruntime + (picks.length / 2 - 1) * stride d (s.taskPool x).sched ≤
          (s.taskPool y).vruntime + picks.length / 2 * stride d (s.taskPool y).sched := by
  obtain ⟨first, hline, hne, hfirst, hsecond⟩ : ∃ first, InLine s l x y first ∧ x ≠ y ∧
      (first = true → RanLess s x y) ∧ (first = false → RanLess s y x) := by
    rcases hwait with ⟨hline, hle⟩ | ⟨hline, hle⟩
    · exact ⟨true, hline, hline.ne, fun _ => hle, nofun⟩
    · exact ⟨false, hline, hline.ne.symm, nofun, fun _ => hle⟩
  have hrace := hrounds.eq_race hline hlevel (hpolicy ▸ hlevel) rfl rfl (hslice x (by simp))
    (hslice y (by simp)) (hwrap x (by simp)) (hwrap y (by simp))
  have hstride := @stride_antitone d _ _ hpolicy hpriority.1 hpriority.2.1 hpriority.2.2
  show Within x y 1 picks ↔ _
  rw [hrace, race_within_one_iff hne hstride hfirst hsecond, ← hrace]

end

/-! ## The highest and the lowest priority -/

def afterRound (clk : Nat → Nat) (s : SchedState) : SchedState :=
  match aiSchedTick (MAX_TASKS + 1) clk (aiSchedPickNext clk s).2 with
  | .done s' => s'
  | _ => s

/-- The test that rounds pick the tasks of a list. -/
def takesTurns (clk : Nat → Nat) (d x y : Nat) : SchedState → List Nat → Bool
  | _, [] => true
  | s, i :: picks =>
    let s₁ := (aiSchedPickNext clk s).2
    decide (∀ j ∈ [x, y], deadlineMissed (s.level j) (s.taskPool j) = false) &&
      (aiSchedPickNext clk s).1 == some i &&
      sub64 (s₁.now clk) (s₁.taskPool i).lastScheduled == d &&
      (aiSchedTick (MAX_TASKS + 1) clk s₁).returns && takesTurns clk d x y (afterRound clk s) picks

theorem rounds_of_takesTurns {clk : Nat → Nat} {d x y : Nat} {picks : List Nat} :
    ∀ {s : SchedState}, takesTurns clk d x y s picks = true → Rounds clk d x y s picks := by
  induction picks with
  | nil => exact fun _ => .done _
  | cons i picks ih =>
    intro s h
    simp only [takesTurns, Bool.and_eq_true, beq_iff_eq, decide_eq_true_eq] at h
    obtain ⟨⟨⟨⟨hrunnable, hpick⟩, helapsed⟩, hreturns⟩, hrest⟩ := h
    obtain ⟨s₂, htick⟩ := Outcome.exists_done hreturns
    rw [afterRound, htick] at hrest
    exact .round hrunnable (Prod.ext hpick rfl) helapsed htick (ih hrest)

/-- `ai_task_create` with the defaults for inference, but for the priority. -/
def createPriority (priority : Int) : Call :=
  .create "inference" .inference
    (some { aiSchedDefaultParams 1 ⟨0, 0, 0, 0, 0, ⟨0, 0, false⟩⟩ with priority := priority }) true

/-- A time slice passes between two readings. -/
def sliceClock : Nat → Nat := steadyClock DEFAULT_TIME_SLICE

/-- A task of the highest priority and one of the lowest are queued. -/
def extremes : SchedState :=
  stateAfter sliceClock [createPriority 0, createPriority 255, .submit 1, .submit 2]

theorem waiting_extremes : Waiting extremes (queueLevel 1) 0 1 := by
  have hempty : ∀ l, l ≠ queueLevel 1 → extremes.runQueues l = none := by decide +kernel
  refine ⟨fun l => ?_, fun l l' j hj hj' => ?_⟩
  · by_cases hl : l = queueLevel 1
    · subst hl
      refine ⟨?_, ?_, ?_, ?_, ?_, trivial⟩ <;> decide +kernel
    · rw [update_of_ne hl]
      exact ⟨hempty l hl, trivial⟩
  · rw [update_apply] at hj hj'
    split at hj
    · split at hj'
      · simp_all
      · cases hj'
    · cases hj

theorem priority_favoured_three : ∃ s picks, Waiting s (queueLevel 1) 0 1 ∧
    Rounds sliceClock DEFAULT_TIME_SLICE 0 1 s picks ∧ picks = [0, 1, 1] ∧
    ∀ k, (picks.take k).count 1 ≤ (picks.take k).count 0 + 1 := by
  have hrounds : Rounds sliceClock DEFAULT_TIME_SLICE 0 1 extremes [0, 1, 1] :=
    rounds_of_takesTurns (by decide +kernel)
  refine ⟨extremes, _, waiting_extremes, hrounds, rfl, ?_⟩
  refine (priority_favoured_iff (.inl ⟨waiting_extremes, by unfold RanLess; decide +kernel⟩)
    (by decide +kernel) ?_ ?_ ?_ hrounds ?_).mpr (.inr ?_)
  all_goals decide +kernel

/-- The task of the highest priority runs once, and then the one of the lowest three times. -/
theorem lowest_priority_favoured : ∃ s h picks, Reach sliceClock (fun _ _ _ => True) s h ∧
    Waiting s (queueLevel 1) 0 1 ∧ (s.taskPool 0).sched.priority = 0 ∧
    (s.taskPool 1).sched.priority = 255 ∧
    (∀ j ∈ [0, 1], (s.taskPool j).sched.timeSliceNs = DEFAULT_TIME_SLICE) ∧
    Rounds sliceClock DEFAULT_TIME_SLICE 0 1 s picks ∧ picks.count 1 = 3 ∧ picks.count 0 = 1 := by
  obtain ⟨h, hr⟩ : ∃ h, Reach sliceClock (fun _ _ _ => True) extremes h :=
    reach_stateAfter (fun _ _ => trivial) (by decide +kernel)
  exact ⟨extremes, h, [0, 1, 1, 1], hr, waiting_extremes, by decide +kernel, by decide +kernel,
    by decide +kernel, rounds_of_takesTurns (by decide +kernel), rfl, rfl⟩

end AiosKernel.Sched
