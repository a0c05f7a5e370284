/-
# `AiosKernel.Sched.Accounts` — running, counted, finished and reused tasks

Four properties of the lives of tasks, each with what a run has to keep to.

* The current task is the one that is running, as long as `ai_sched_pick_next` is
  called only while no task is current or no task is queued: it does not look at
  `current_task`.
* The counters agree with the states, as long as tasks that are finished are
  neither destroyed nor suspended: `ai_task_destroy` counts a finished task again.
* A finished task stays finished, as long as it is not suspended:
  `ai_task_suspend` takes a task in any state, and `ai_task_resume` queues it.
* `ai_task_create` fails for lack of memory only while as many tasks as the pool
  holds are unfinished, as long as the pool has room or no task in it has finished:
  `alloc_task` never gives a block out again.
-/
import AiosKernel.Sched.Levels
import AiosKernel.Lib.Census

namespace AiosKernel.Sched

open Word DList SchedState Census Function

/-! ## One running task -/

/-- The running tasks are the current one. -/
structure Life.Single (l : Life) : Prop where
  running : ∀ i < l.created, l.state i = .running ↔ l.current = some i
  current : ∀ i ∈ l.current, i < l.created

variable {l : Life} {i : Nat} {s s' : SchedState} {clk : Nat → Nat} {fuel : Nat} {c : Call}
  {sub : List Nat} {Q : Level → List Nat} {ok : SchedState → List Event → Call → Prop}
  {st : TaskState} {task : Option Nat}

theorem Life.Single.retire (h : l.Single) (hi : i < l.created) (hst : st ≠ .running) :
    ((l.withdraw i).mark i st).Single := by
  have hcurrent : ∀ j, (if l.state i = .running then none else l.current) = some j ↔
      l.current = some j ∧ j ≠ i := by
    intro j
    constructor
    · intro hj
      split at hj
      · exact nomatch hj
      · rename_i hnot
        refine ⟨hj, ?_⟩
        rintro rfl
        exact hnot ((h.running j hi).mpr hj)
    · rintro ⟨hj, hne⟩
      rw [if_neg, hj]
      intro hrun
      exact hne (Option.some.inj (hj.symm.trans ((h.running i hi).mp hrun)))
  refine ⟨fun j hj => ?_, fun j hj => h.current j ((hcurrent j).mp hj).1⟩
  show update l.state i st j = .running ↔ _
  rw [show ((l.withdraw i).mark i st).current = some j ↔ l.current = some j ∧ j ≠ i from hcurrent j]
  by_cases hji : j = i
  · subst hji
    rw [update_self]
    exact ⟨fun he => absurd he hst, fun he => absurd rfl he.2⟩
  · rw [update_of_ne hji, h.running j hj]
    exact ⟨fun he => ⟨he, hji⟩, And.left⟩

theorem Life.Single.mark (h : l.Single) (hi : i < l.created) (hst : st ≠ .running)
    (hnot : l.state i ≠ .running) : (l.mark i st).Single := by
  have hretire := h.retire hi hst
  rwa [Life.withdraw, if_neg hnot] at hretire

theorem Life.Single.create (h : l.Single) : l.create.Single := by
  refine ⟨fun j hj => ?_, fun j hj => Nat.lt_succ_of_lt (h.current j hj)⟩
  rw [Life.create_state]
  show _ ↔ l.current = some j
  rcases Nat.lt_succ_iff_lt_or_eq.mp hj with hlt | rfl
  · rw [update_of_ne hlt.ne, h.running j hlt]
  · rw [update_self]
    exact ⟨fun he => (nomatch he), fun he => absurd (h.current _ he) (lt_irrefl _)⟩

theorem Life.Single.run (h : l.Single) (hi : i < l.created) (hidle : l.current = none) :
    (l.run i).Single := by
  refine ⟨fun j hj => ?_, fun j hj => Option.mem_some.mp hj ▸ hi⟩
  show update l.state i .running j = .running ↔ some i = some j
  by_cases hji : j = i
  · subst hji
    rw [update_self]
    exact ⟨fun _ => rfl, fun _ => rfl⟩
  · rw [update_of_ne hji, h.running j hj, hidle]
    exact ⟨fun he => (nomatch he), fun he => absurd (Option.some.inj he).symm hji⟩

theorem Moves.single (h : Moves s c l) (hs : s.life.Single) : l.Single := by
  cases h with
  | still => exact hs
  | create => exact hs.create
  | @destroy _ i found =>
    have hretire : ((s.life.withdraw i).mark i .completed).Single :=
      hs.retire (findTask_some found).1 (by decide)
    exact ⟨hretire.running, hretire.current⟩
  | suspend found => exact hs.retire (findTask_some found).1 (by decide)
  | queue lt state =>
    refine hs.mark lt (by decide) ?_
    intro hrun
    have hrun' : (s.taskPool _).state = .running := hrun
    rw [hrun'] at state
    exact state.elim (fun he => (nomatch he)) (fun he => (nomatch he))
  | @requeue _ i running =>
    have hi : i < s.taskPoolNext := running.elim (hs.current i) And.left
    have hrun : s.life.state i = .running := running.elim (hs.running i hi).mpr And.right
    have hretire : ((s.life.withdraw i).mark i .ready).Single := hs.retire hi (by decide)
    rwa [Life.withdraw, if_pos hrun] at hretire

theorem Picks.single (h : Picks clk s task s') (hc : Leveled s)
    (hs : s.life.Single) (hidle : s.currentTask = none) : s'.life.Single := by
  induction h with
  | nothing => exact hs
  | @fail s s' l i task head missed rest ih =>
    have hi := (hc.heads l i head).1
    have hnot : s.life.state i ≠ .running := by
      intro hrun
      exact nomatch hidle.symm.trans ((hs.running i hi).mp hrun)
    have hmark : (s.life.mark i .failed).Single := hs.mark hi (by decide) hnot
    have hlife := @failTask_life s i
    exact ih (hc.failTask head) (hlife ▸ ⟨hmark.running, hmark.current⟩)
      ((congrArg Life.current hlife).trans hidle)
  | @run s l i head =>
    rw [runTask_life]
    exact hs.run (hc.heads l i head).1 hidle

/-- `ai_sched_pick_next` is called only while no task is current or none is queued. -/
def PicksIdle (s : SchedState) (_ : List Event) : Call → Prop
  | .pickNext => s.currentTask = none ∨ ∀ l, s.runQueues l = none
  | _ => True

theorem Picks.of_empty (h : Picks clk s task s') (hempty : ∀ l, s.runQueues l = none) : s' = s := by
  cases h with
  | nothing => rfl
  | @fail _ _ l _ _ head => exact nomatch (hempty l).symm.trans head
  | @run _ l _ head => exact nomatch (hempty l).symm.trans head

theorem Reach.single {h : List Event} (hr : Reach clk PicksIdle s h) : s.life.Single := by
  induction hr with
  | init hb =>
    refine ⟨fun j hj => ?_, fun j hj => nomatch hj⟩
    have hj' : j < 0 := hb.taskPoolNext ▸ hj
    exact absurd hj' (Nat.not_lt_zero j)
  | @call s s' h c r fuel hr hok hcall ih =>
    by_cases hc : c = .pickNext
    · subst hc
      obtain ⟨task, -, hpicks⟩ := exec_picks hcall
      rcases hok with hidle | hempty
      · exact hpicks.single hr.settled.leveled ih hidle
      · exact hpicks.of_empty hempty ▸ ih
    · exact (exec_effect hr.settled.current hc hcall).moves.single ih

/-- In every run that picks a task only while none is current or none is queued: a created task is
running exactly if it is the current one, and the current one is a created task. -/
theorem running_is_current {h : List Event} (hr : Reach clk PicksIdle s h) :
    (∀ i < s.taskPoolNext, (s.taskPool i).state = .running ↔ s.currentTask = some i) ∧
      ∀ i, s.currentTask = some i → i < s.taskPoolNext :=
  ⟨hr.single.running, hr.single.current⟩

def twoQueued : SchedState := after (.submit 2) oneQueued

theorem reach_twoQueued (hcreate : ∀ s h, ok s h createInference)
    (hsubmit : ok (after createInference start) [(createInference, .created .ok (some 1))] (.submit 1))
    (hsubmit' : ok oneQueued [(createInference, .created .ok (some 2)), (.submit 1, .status .ok),
      (createInference, .created .ok (some 1))] (.submit 2)) :
    Reach stillClock ok twoQueued [(.submit 2, .status .ok), (createInference, .created .ok (some 2)),
      (.submit 1, .status .ok), (createInference, .created .ok (some 1))] :=
  (reach_oneQueued hcreate hsubmit).after _ _ hsubmit' rfl

theorem running_is_current_picked : ∃ s h, Reach stillClock PicksIdle s h ∧
    s.currentTask = some 0 ∧ (s.taskPool 0).state = .running := by
  have htwo : Reach stillClock PicksIdle twoQueued _ :=
    reach_twoQueued (fun _ _ => trivial) trivial trivial
  have hr := htwo.after .pickNext (.picked (some 0)) (.inl rfl) rfl
  have hcurrent : (after .pickNext twoQueued).currentTask = some 0 := rfl
  exact ⟨_, _, hr, hcurrent, ((running_is_current hr).1 0 (by decide)).mpr hcurrent⟩

/-- A second pick leaves the first task running, though it is no longer the current one. -/
theorem pick_twice_runs_two : ∃ s h, Reach stillClock Careful s h ∧
    (s.taskPool 0).state = .running ∧ (s.taskPool 1).state = .running ∧ s.currentTask = some 1 := by
  have htwo := reach_twoQueued careful_createInference careful_submit_new careful_submit_second
  have hfirst := htwo.after .pickNext (.picked (some 0)) ⟨trivial, trivial, trivial⟩ rfl
  have hsecond := hfirst.after .pickNext (.picked (some 1)) ⟨trivial, trivial, trivial⟩ rfl
  exact ⟨_, _, hsecond, rfl, rfl, rfl⟩

/-! ## Counted tasks -/

def TaskState.finished : TaskState → Bool
  | .completed | .failed => true
  | _ => false

/-- The task has not come to its end. -/
def TaskState.live (st : TaskState) : Bool := !st.finished

structure Life.Counted (l : Life) : Prop where
  active : l.active = census l.created l.state TaskState.live
  completed : l.completed = census l.created l.state (· == .completed)
  failed : l.failed = census l.created l.state (· == .failed)
  total : l.total = l.active + l.completed + l.failed

theorem census_classes (n : Nat) (f : Nat → TaskState) :
    census n f TaskState.live + census n f (· == .completed) + census n f (· == .failed) = n := by
  induction n with
  | zero => rfl
  | succ n ih =>
    have hone : weigh TaskState.live (f n) + weigh (· == .completed) (f n) +
        weigh (· == .failed) (f n) = 1 := by
      cases f n <;> rfl
    rw [census_succ, census_succ, census_succ]
    omega

theorem Life.Counted.total_eq (h : l.Counted) : l.total = l.created := by
  rw [h.total, h.active, h.completed, h.failed]
  exact census_classes l.created l.state

theorem Life.Counted.small (h : l.Counted) (hcap : l.created ≤ MAX_TASKS) :
    l.total ≤ 256 ∧ l.active ≤ 256 ∧ l.completed ≤ 256 ∧ l.failed ≤ 256 := by
  have htotal := h.total_eq
  have hsum := h.total
  have hmax : MAX_TASKS = 256 := rfl
  omega

theorem Life.Counted.create (h : l.Counted) (hroom : l.created < MAX_TASKS) : l.create.Counted := by
  obtain ⟨htotal, hactive, -, -⟩ := h.small hroom.le
  have htotal' : u64 (l.total + 1) = l.total + 1 := u64_eq (by omega)
  have hactive' : u64 (l.active + 1) = l.active + 1 := u64_eq (by omega)
  have hpush : ∀ p, census l.create.created l.create.state p =
      census l.created l.state p + weigh p .ready := fun _ => census_push
  constructor
  · show u64 (l.active + 1) = _
    rw [hactive', hpush, h.active]
    rfl
  · rw [hpush]
    exact h.completed
  · rw [hpush]
    exact h.failed
  · show u64 (l.total + 1) = u64 (l.active + 1) + l.completed + l.failed
    rw [htotal', hactive', h.total]
    omega

theorem census_mark (hi : i < l.created) (st : TaskState) (p : TaskState → Bool) :
    census l.created (update l.state i st) p + weigh p (l.state i) =
      census l.created l.state p + weigh p st := census_update hi

theorem weigh_live (hlive : st.live = true) :
    weigh TaskState.live st = 1 ∧ weigh (· == .completed) st = 0 ∧ weigh (· == .failed) st = 0 := by
  cases st <;> first | exact ⟨rfl, rfl, rfl⟩ | exact nomatch hlive

section

variable (h : l.Counted) (hi : i < l.created)
include h hi

theorem Life.Counted.mark (hold : (l.state i).live = true) (hnew : st.live = true)
    (current : Option Nat) :
    ({ l.mark i st with current := current } : Life).Counted := by
  obtain ⟨hold₁, hold₂, hold₃⟩ := weigh_live hold
  obtain ⟨hnew₁, hnew₂, hnew₃⟩ := weigh_live hnew
  refine ⟨h.active.trans ?_, h.completed.trans ?_, h.failed.trans ?_, h.total⟩
  · have hmark := census_mark hi st TaskState.live
    rw [hold₁, hnew₁] at hmark
    exact (Nat.add_right_cancel hmark).symm
  · have hmark := census_mark hi st (· == .completed)
    rw [hold₂, hnew₂] at hmark
    exact (Nat.add_right_cancel hmark).symm
  · have hmark := census_mark hi st (· == .failed)
    rw [hold₃, hnew₃] at hmark
    exact (Nat.add_right_cancel hmark).symm

theorem Life.Counted.finish (hlive : (l.state i).live = true) (hst : st.live = false) :
    census l.created (update l.state i st) TaskState.live + 1 = l.active ∧
      census l.created (update l.state i st) (· == .completed) =
        l.completed + weigh (· == .completed) st ∧
      census l.created (update l.state i st) (· == .failed) =
        l.failed + weigh (· == .failed) st := by
  obtain ⟨hlive₁, hlive₂, hlive₃⟩ := weigh_live hlive
  have hmark₁ := census_mark hi st TaskState.live
  have hmark₂ := census_mark hi st (· == .completed)
  have hmark₃ := census_mark hi st (· == .failed)
  rw [hlive₁, ← h.active, weigh, hst] at hmark₁
  rw [hlive₂, ← h.completed] at hmark₂
  rw [hlive₃, ← h.failed] at hmark₃
  exact ⟨hmark₁, hmark₂, hmark₃⟩

section

variable (hcap : l.created ≤ MAX_TASKS) (hlive : (l.state i).live = true)
include hcap hlive

theorem Life.Counted.destroy : (l.destroy i).Counted := by
  obtain ⟨-, hactive, hcompleted, -⟩ := h.small hcap
  obtain ⟨hmark₁, hmark₂, hmark₃⟩ := @finish l i .completed h hi hlive rfl
  have hsub : sub64 l.active 1 = l.active - 1 := sub64_eq (by omega) (by omega)
  have hadd : u64 (l.completed + 1) = l.completed + 1 := u64_eq (by omega)
  have htotal := h.total
  constructor
  · show sub64 l.active 1 = census l.created (update l.state i .completed) _
    omega
  · exact hadd.trans hmark₂.symm
  · exact hmark₃.symm
  · show l.total = sub64 l.active 1 + u64 (l.completed + 1) + l.failed
    omega

theorem Life.Counted.fail : (l.fail i).Counted := by
  obtain ⟨-, hactive, -, hfailed⟩ := h.small hcap
  obtain ⟨hmark₁, hmark₂, hmark₃⟩ := @finish l i .failed h hi hlive rfl
  have hsub : sub64 l.active 1 = l.active - 1 := sub64_eq (by omega) (by omega)
  have hadd : u64 (l.failed + 1) = l.failed + 1 := u64_eq (by omega)
  have htotal := h.total
  constructor
  · show sub64 l.active 1 = census l.created (update l.state i .failed) _
    omega
  · exact hmark₂.symm
  · exact hadd.trans hmark₃.symm
  · show l.total = sub64 l.active 1 + l.completed + u64 (l.failed + 1)
    omega

end

end

/-! ### Runs -/

/-- Tasks that are finished are neither destroyed nor suspended. -/
def EndsLive (s : SchedState) : Call → Prop
  | .destroy id | .suspend id => ∀ i, s.findTask id = some i → (s.taskPool i).state.live = true
  | _ => True

theorem Moves.counted (h : Moves s c l) (hinv : SchedInv s sub Q none)
    (hends : EndsLive s c) (hs : s.life.Counted) : l.Counted := by
  have hcap : s.life.created ≤ MAX_TASKS := hinv.queues.cap
  cases h with
  | still => exact hs
  | create room => exact hs.create room
  | @destroy id i found => exact hs.destroy (findTask_some found).1 hcap (hends i found)
  | @suspend id i found => exact hs.mark (findTask_some found).1 (hends i found) rfl _
  | @queue _ i lt state =>
    refine hs.mark lt ?_ rfl s.currentTask
    show (s.taskPool i).state.live = true
    rcases state with hst | hst <;> rw [hst] <;> rfl
  | @requeue _ i running =>
    obtain ⟨hi, hrun⟩ : i < s.taskPoolNext ∧ (s.taskPool i).state = .running :=
      running.elim (fun hcur => (hinv.current i hcur).2) id
    exact hs.mark hi (congrArg TaskState.live hrun) rfl none

theorem SchedInv.head_ready {l : Level} (h : SchedInv s sub Q none) (hhead : s.runQueues l = some i) :
    i < s.taskPoolNext ∧ (s.taskPool i).state = .ready :=
  ⟨h.queues.bound l i (h.head_mem hhead), h.queues.ready l i (h.head_mem hhead)⟩

theorem Picks.counted (h : Picks clk s task s') :
    ∀ {Q}, SchedInv s sub Q none → s.life.Counted → s'.life.Counted := by
  induction h with
  | nothing => exact fun _ hs => hs
  | @fail s s' l i task head missed rest ih =>
    intro Q hinv hs
    obtain ⟨hi, hready⟩ := hinv.head_ready head
    obtain ⟨Q', hinv'⟩ := hinv.failTask head
    refine ih hinv' ?_
    rw [failTask_life]
    exact hs.fail hi hinv.queues.cap (congrArg TaskState.live hready)
  | @run s l i head =>
    intro Q hinv hs
    obtain ⟨hi, hready⟩ := hinv.head_ready head
    rw [runTask_life]
    exact hs.mark hi (congrArg TaskState.live hready) rfl (some i)

theorem Reach.counted {h : List Event}
    (hr : Reach clk (fun s h c => Careful s h c ∧ EndsLive s c) s h) : s.life.Counted := by
  induction hr with
  | init hb =>
    have hcreated : (aiSchedInit _).2.life.created = 0 := hb.taskPoolNext
    constructor
    iterate 3
      · rw [hcreated]
        rfl
    · rfl
  | @call s s' h c r fuel hr hok hcall ih =>
    obtain ⟨⟨Q, hinv⟩, -⟩ := hr.inv fun _ _ _ _ hc => hc.1
    by_cases hc : c = .pickNext
    · subst hc
      obtain ⟨task, -, hpicks⟩ := exec_picks hcall
      exact hpicks.counted hinv ih
    · exact (exec_effect hr.settled.current hc hcall).moves.counted hinv hok.2 ih

/-- The number of created tasks in a state that passes `p`. -/
def tasksIn (s : SchedState) (p : TaskState → Bool) : Nat :=
  census s.taskPoolNext (fun i => (s.taskPool i).state) p

/-- In every careful run that neither destroys nor suspends finished tasks, the counters count the
tasks, and the total is their sum. -/
theorem counters_exact {h : List Event}
    (hr : Reach clk (fun s h c => Careful s h c ∧ EndsLive s c) s h) :
    s.schedStats.activeTasks = tasksIn s TaskState.live ∧
      s.schedStats.completedTasks = tasksIn s (· == .completed) ∧
      s.schedStats.failedTasks = tasksIn s (· == .failed) ∧
      s.schedStats.totalTasks = s.schedStats.activeTasks + s.schedStats.completedTasks +
        s.schedStats.failedTasks :=
  ⟨hr.counted.active, hr.counted.completed, hr.counted.failed, hr.counted.total⟩

/-- One task is queued; nothing has finished. -/
theorem counters_exact_oneQueued : ∃ s h,
    Reach stillClock (fun s h c => Careful s h c ∧ EndsLive s c) s h ∧
      s.schedStats.activeTasks = 2 ∧ tasksIn s TaskState.live = 2 := by
  have hr := @reach_oneQueued (fun s h c => Careful s h c ∧ EndsLive s c)
    (fun s h => ⟨careful_createInference s h, trivial⟩) ⟨careful_submit_new, trivial⟩
  have hactive : oneQueued.schedStats.activeTasks = 2 := rfl
  exact ⟨_, _, hr, hactive, (counters_exact hr).1.symm.trans hactive⟩

/-- A task is created, submitted and destroyed. -/
def oneDestroyed : SchedState := after (.destroy 1) (after (.submit 1) (after createInference start))

theorem careful_destroy {h : List Event} {id : Nat} (hsub : id ∈ submitted h) :
    Careful s h (.destroy id) :=
  ⟨trivial, trivial, fun _ _ _ => hsub⟩

def oneLife : List Event :=
  [(.destroy 1, .status .ok), (.submit 1, .status .ok), (createInference, .created .ok (some 1))]

theorem reach_oneDestroyed (hok : ∀ s h c, Careful s h c → (∀ id, c ≠ .suspend id) → ok s h c) :
    Reach stillClock ok oneDestroyed oneLife := by
  have hcreated := reach_start.after createInference (.created .ok (some 1))
    (hok _ _ _ (careful_createInference _ _) (by simp [createInference])) rfl
  have hqueued := hcreated.after (.submit 1) (.status .ok)
    (hok _ _ _ careful_submit_new (by simp)) rfl
  exact hqueued.after (.destroy 1) (.status .ok)
    (hok _ _ _ (careful_destroy (by decide)) (by simp)) rfl

/-- Cancelled once more, the task is counted as completed twice, and the number of active tasks
goes below zero. -/
theorem destroy_twice_miscounts : ∃ s h, Reach stillClock Careful s h ∧
    s.schedStats.completedTasks = 2 ∧ tasksIn s (· == .completed) = 1 ∧
    s.schedStats.activeTasks = 2 ^ 64 - 1 ∧ tasksIn s TaskState.live = 0 := by
  have honce := @reach_oneDestroyed Careful fun _ _ _ hcareful _ => hcareful
  have hagain := honce.after (.destroy 1) (.status .ok) (careful_destroy (by decide)) rfl
  exact ⟨_, _, hagain, rfl, by decide, by decide, by decide⟩

/-! ## Finished tasks -/

/-- Tasks that are finished are not suspended. -/
def SuspendsLive (s : SchedState) : Call → Prop
  | .suspend id => ∀ i, s.findTask id = some i → (s.taskPool i).state.live = true
  | _ => True

/-- The states that follow a state in a run whose calls all meet `ok`. -/
inductive Later (clk : Nat → Nat) (ok : SchedState → List Event → Call → Prop) (s : SchedState)
    (h : List Event) : SchedState → List Event → Prop where
  | refl : Later clk ok s h s h
  | call {s₁ s₂ : SchedState} {h₁ : List Event} {c : Call} {r : Reply} {fuel : Nat} :
      Later clk ok s h s₁ h₁ → ok s₁ h₁ c → exec clk c s₁ fuel = .done (r, s₂) →
      Later clk ok s h s₂ ((c, r) :: h₁)

variable {h h' : List Event}

theorem Later.reach (hl : Later clk ok s h s' h') (hr : Reach clk ok s h) : Reach clk ok s' h' := by
  induction hl with
  | refl => exact hr
  | call _ hok hcall ih => exact .call ih hok hcall

/-- The task has been created and is finished. -/
def Life.Done (i : Nat) (l : Life) : Prop := i < l.created ∧ (l.state i).finished = true

theorem Life.Done.congr {l' : Life} (h : l.Done i) (hcreated : l'.created = l.created)
    (hstate : l'.state = l.state) : l'.Done i := by
  unfold Life.Done
  rw [hcreated, hstate]
  exact h

theorem Life.Done.mark {j : Nat} (h : l.Done i)
    (hst : j = i → st.finished = true) : (l.mark j st).Done i := by
  refine ⟨h.1, ?_⟩
  rw [Life.mark_state]
  by_cases hij : i = j
  · subst hij
    rw [update_self]
    exact hst rfl
  · rw [update_of_ne hij]
    exact h.2

theorem Life.Done.ne {j : Nat} (h : l.Done i) (hlive : (l.state j).finished = false) : j ≠ i := by
  rintro rfl
  exact nomatch hlive.symm.trans h.2

theorem Moves.done (h : Moves s c l) (hinv : SchedInv s sub Q none)
    (hsuspends : SuspendsLive s c) (hs : s.life.Done i) : l.Done i := by
  cases h with
  | still => exact hs
  | create room =>
    refine ⟨Nat.lt_succ_of_lt hs.1, ?_⟩
    rw [Life.create_state, update_of_ne hs.1.ne]
    exact hs.2
  | @destroy id j found =>
    have hmark : (s.life.mark j .completed).Done i := hs.mark fun _ => rfl
    exact hmark.congr rfl rfl
  | @suspend id j found =>
    have hlive : (s.taskPool j).state.live = true := hsuspends j found
    rw [TaskState.live, Bool.not_eq_true'] at hlive
    have hne : j ≠ i := hs.ne hlive
    have hmark : (s.life.mark j .suspended).Done i := hs.mark fun he => absurd he hne
    exact hmark.congr rfl rfl
  | @queue _ j lt state =>
    refine hs.mark fun he => absurd he (hs.ne ?_)
    show (s.taskPool j).state.finished = false
    rcases state with hst | hst <;> rw [hst] <;> rfl
  | @requeue _ j running =>
    have hrun : (s.taskPool j).state = .running :=
      running.elim (fun hcur => (hinv.current j hcur).2.2) And.right
    exact hs.mark fun he => absurd he (hs.ne (congrArg TaskState.finished hrun))

theorem Picks.done (h : Picks clk s task s') :
    ∀ {Q}, SchedInv s sub Q none → s.life.Done i → s'.life.Done i ∧ task ≠ some i := by
  induction h with
  | nothing => exact fun _ hs => ⟨hs, by simp⟩
  | @fail s s' l j task head missed rest ih =>
    intro Q hinv hs
    obtain ⟨Q', hinv'⟩ := hinv.failTask head
    have hmark : (s.life.mark j .failed).Done i := hs.mark fun _ => rfl
    refine ih hinv' ?_
    rw [failTask_life]
    exact hmark.congr rfl rfl
  | @run s l j head =>
    intro Q hinv hs
    have hne : j ≠ i := hs.ne (congrArg TaskState.finished (hinv.head_ready head).2)
    refine ⟨?_, fun he => hne (Option.some.inj he)⟩
    rw [runTask_life]
    exact hs.mark fun he => absurd he hne

/-- What a finished task is like from then on: it is finished and on no queue, and the calls made
since the history `h` have not picked it. -/
structure StaysDone (i : Nat) (h : List Event) (s' : SchedState) (h' : List Event) : Prop where
  finished : (s'.taskPool i).state = .completed ∨ (s'.taskPool i).state = .failed
  unqueued : ∃ Q : Level → List Nat, (∀ l, Follows s' (s'.runQueues l) (Q l)) ∧ ∀ l, i ∉ Q l
  unpicked : ∃ new, h' = new ++ h ∧ ∀ e ∈ new, e.2 ≠ .picked (some i)

theorem finished_iff : st.finished = true ↔ st = .completed ∨ st = .failed := by
  cases st <;> simp [TaskState.finished]

/-- In every careful run that suspends no finished task: once a task is finished it stays finished,
is on no queue and is not picked. -/
theorem finished_stays (hr : Reach clk (fun s h c => Careful s h c ∧ SuspendsLive s c) s h)
    (hi : i < s.taskPoolNext)
    (hdone : (s.taskPool i).state = .completed ∨ (s.taskPool i).state = .failed)
    (hl : Later clk (fun s h c => Careful s h c ∧ SuspendsLive s c) s h s' h') :
    StaysDone i h s' h' := by
  have hrun : s'.life.Done i ∧ ∃ new, h' = new ++ h ∧ ∀ e ∈ new, e.2 ≠ .picked (some i) := by
    induction hl with
    | refl => exact ⟨⟨hi, finished_iff.mpr hdone⟩, [], rfl, by simp⟩
    | @call s₁ s₂ h₁ c r fuel hl hok hcall ih =>
      obtain ⟨hs₁, new, rfl, hnew⟩ := ih
      obtain ⟨⟨Q, hinv⟩, -⟩ := (hl.reach hr).inv fun _ _ _ _ hc => hc.1
      obtain ⟨hs₂, hr₂⟩ : s₂.life.Done i ∧ r ≠ .picked (some i) := by
        by_cases hc : c = .pickNext
        · subst hc
          obtain ⟨task, rfl, hpicks⟩ := exec_picks hcall
          obtain ⟨hs₂, htask⟩ := hpicks.done hinv hs₁
          exact ⟨hs₂, fun he => htask (Reply.picked.inj he)⟩
        · have heffect := exec_effect (hl.reach hr).settled.current hc hcall
          exact ⟨heffect.moves.done hinv hok.2 hs₁, heffect.none_picked i⟩
      exact ⟨hs₂, (c, r) :: new, rfl, List.forall_mem_cons.mpr ⟨hr₂, hnew⟩⟩
  obtain ⟨⟨Q, hinv⟩, -⟩ := (hl.reach hr).inv fun _ _ _ _ hc => hc.1
  refine ⟨finished_iff.mp hrun.1.2, ⟨Q, ?_, ?_⟩, hrun.2⟩
  · intro l
    have hlist := hinv.queues.lists.links l
    rw [hlist.head_eq]
    exact follows_of_seg hlist.2
  · refine hinv.queues.notMem_of_state ?_
    intro hready
    have hfinished := hrun.1.2
    rw [show s'.life.state i = .ready from hready] at hfinished
    exact nomatch hfinished

theorem Later.after {s₁ : SchedState} {h₁ : List Event} (hl : Later stillClock ok s h s₁ h₁)
    (c : Call) (r : Reply) (hok : ok s₁ h₁ c)
    (hcall : exec stillClock c s₁ (MAX_TASKS + 1) = .done (r, after c s₁)) :
    Later stillClock ok s h (after c s₁) ((c, r) :: h₁) := .call hl hok hcall

theorem careful_pickNext : Careful s h .pickNext := ⟨trivial, trivial, trivial⟩

/-- The destroyed task is not there to be picked. -/
theorem finished_stays_destroyed : ∃ s h s' h',
    Reach stillClock (fun s h c => Careful s h c ∧ SuspendsLive s c) s h ∧
      (s.taskPool 0).state = .completed ∧
      Later stillClock (fun s h c => Careful s h c ∧ SuspendsLive s c) s h s' h' ∧
      h' = (.pickNext, .picked none) :: h ∧ StaysDone 0 h s' h' := by
  have hr : Reach stillClock (fun s h c => Careful s h c ∧ SuspendsLive s c) oneDestroyed oneLife := by
    refine reach_oneDestroyed fun s h c hcareful hc => ⟨hcareful, ?_⟩
    cases c with
    | suspend id => exact absurd rfl (hc id)
    | _ => trivial
  have hl := (Later.refl : Later stillClock (fun s h c => Careful s h c ∧ SuspendsLive s c)
    oneDestroyed oneLife oneDestroyed oneLife).after .pickNext (.picked none)
    ⟨careful_pickNext, trivial⟩ rfl
  exact ⟨_, _, _, _, hr, rfl, hl, rfl, finished_stays hr (by decide) (.inl rfl) hl⟩

/-- Suspended and resumed, a destroyed task is picked and runs again. -/
theorem suspend_revives_finished : ∃ s h s' h', Reach stillClock Careful s h ∧
    (s.taskPool 0).state = .completed ∧ Later stillClock Careful s h s' h' ∧
    (.pickNext, .picked (some 0)) ∈ h' ∧ (s'.taskPool 0).state = .running := by
  have hr := @reach_oneDestroyed Careful fun _ _ _ hcareful _ => hcareful
  have hsuspended := (Later.refl : Later stillClock Careful oneDestroyed oneLife oneDestroyed
    oneLife).after (.suspend 1) (.status .ok) ⟨trivial, trivial, fun _ _ _ => by decide⟩ rfl
  have hresumed := hsuspended.after (.resume 1) (.status .ok) ⟨trivial, trivial, trivial⟩ rfl
  have hpicked := hresumed.after .pickNext (.picked (some 0)) careful_pickNext rfl
  exact ⟨_, _, _, _, hr, rfl, hpicked, List.mem_cons_self, rfl⟩

/-! ## Reused blocks -/

theorem Acts.cap {r : Reply} (h : Acts clk s c r s') (hs : s.taskPoolNext ≤ MAX_TASKS) :
    s'.taskPoolNext ≤ MAX_TASKS := by
  cases h with
  | quiet _ _ after | tick _ after => exact after.poolNext_eq.trans_le hs
  | create room =>
    rw [aiTaskCreate_poolNext room]
    exact room
  | setPriority _ before after => exact (after.poolNext_eq.trans before.poolNext_eq).trans_le hs
  | pick before => exact (runTask_poolNext.trans before.poolNext_eq).trans_le hs

theorem Reach.cap (hr : Reach clk ok s h) : s.taskPoolNext ≤ MAX_TASKS := by
  induction hr with
  | init hb => exact hb.taskPoolNext.trans_le (Nat.zero_le _)
  | call hr _ hcall ih => exact (exec_acts hr.settled hcall).1.cap ih

/-- `ai_task_create` with valid arguments always returns: it makes a task if there is room in the
pool, and fails for lack of memory if there is none. -/
theorem exec_create (clk : Nat → Nat) (name : String) (workload : WorkloadType)
    (params : SchedParams) (s : SchedState) (fuel : Nat) : ∃ st out s',
    exec clk (.create name workload (some params) true) s fuel = .done (.created st out, s') ∧
      (s.taskPoolNext < MAX_TASKS → st = .ok ∧ s'.life = s.life.create) ∧
      (MAX_TASKS ≤ s.taskPoolNext → st = .errNomem ∧ out = none ∧ s' = s) := by
  refine ⟨_, _, _, rfl, fun hroom => ⟨?_, aiTaskCreate_life clk _ _ _ hroom⟩, fun hfull => ?_⟩
  · simp [allocTask, hroom.not_ge]
  · have hnone : s.allocTask = none := if_pos hfull
    simp [hnone]

/-- **In every run**: `ai_task_create` with valid arguments returns, and that it fails for lack of
memory only while `MAX_AI_TASKS` tasks are neither completed nor failed, is true just when there is
room in the pool or no task has finished. -/
theorem create_nomem_iff {name : String} {workload : WorkloadType} {params : SchedParams}
    (hr : Reach clk (fun _ _ _ => True) s h) : ∃ st out s',
    exec clk (.create name workload (some params) true) s fuel = .done (.created st out, s') ∧
      (st = .ok ∨ st = .errNomem) ∧
      ((st = .errNomem → tasksIn s TaskState.live = MAX_AI_TASKS) ↔
        s.taskPoolNext < MAX_TASKS ∨
          ∀ i < s.taskPoolNext, (s.taskPool i).state ≠ .completed ∧ (s.taskPool i).state ≠ .failed) := by
  obtain ⟨st, out, s', hcall, hroom, hfull⟩ := exec_create clk name workload params s fuel
  refine ⟨st, out, s', hcall, ?_⟩
  rcases Nat.lt_or_ge s.taskPoolNext MAX_TASKS with hlt | hge
  · obtain ⟨rfl, -⟩ := hroom hlt
    exact ⟨.inl rfl, fun _ => .inl hlt, fun _ he => nomatch he⟩
  · obtain ⟨rfl, -⟩ := hfull hge
    have hmax : s.taskPoolNext = MAX_AI_TASKS := hr.cap.antisymm hge
    have hlive : ∀ st : TaskState, st.live = true ↔ st ≠ .completed ∧ st ≠ .failed := by
      intro st
      cases st <;> simp [TaskState.live, TaskState.finished]
    refine ⟨.inr rfl, ?_⟩
    rw [imp_iff_right rfl, ← hmax, tasksIn, census_all]
    simp only [hlive, or_iff_right hge.not_gt]

/-- After one task is destroyed there is room for the next. -/
theorem create_nomem_iff_oneDestroyed : ∃ s h out s', Reach stillClock (fun _ _ _ => True) s h ∧
    (s.taskPool 0).state = .completed ∧
    exec stillClock createInference s 0 = .done (.created .ok out, s') := by
  have hr := @reach_oneDestroyed (fun _ _ _ => True) fun _ _ _ _ _ => trivial
  obtain ⟨st, out, s', hcall, rfl | rfl, hiff⟩ := create_nomem_iff hr
  · exact ⟨_, _, out, s', hr, rfl, hcall⟩
  · exact absurd (hiff.mpr (.inl (by decide)) rfl) (by decide)

theorem SchedInv.findTask_eq {e : Option Nat} (h : SchedInv s sub Q e) (hi : i < s.taskPoolNext) :
    s.findTask (i + 1) = some i := by
  cases hfind : s.findTask (i + 1) with
  | none =>
    have hnone := List.find?_eq_none.mp hfind i (List.mem_range.mpr hi)
    exact absurd (beq_iff_eq.mpr (h.ids i hi)) hnone
  | some j =>
    obtain ⟨hj, hid⟩ := findTask_some hfind
    rw [h.ids j hj] at hid
    exact congrArg some (Nat.succ.inj hid)

theorem exists_submitted (hr : Reach stillClock Careful s h)
    (hroom : s.taskPoolNext < MAX_TASKS) :
    ∃ s' h', Reach stillClock Careful s' h' ∧ s.taskPoolNext + 1 ∈ submitted h' ∧
      s'.life = s.life.create.mark s.taskPoolNext .ready := by
  obtain ⟨⟨Q, hinv⟩, -⟩ := hr.inv fun _ _ _ _ hc => hc
  obtain ⟨st₁, out₁, s₁, hcreate, hlife₁, -⟩ := exec_create stillClock _ _ _ s 0
  obtain ⟨-, hlife₁⟩ := hlife₁ hroom
  have hr₁ := Reach.call hr (careful_createInference s h) hcreate
  obtain ⟨⟨Q₁, hinv₁⟩, -⟩ := hr₁.inv fun _ _ _ _ hc => hc
  have hcreated : s₁.taskPoolNext = s.taskPoolNext + 1 := congrArg Life.created hlife₁
  have hfind := hinv₁.findTask_eq (i := s.taskPoolNext) (by omega)
  have hready : (s₁.taskPool s.taskPoolNext).state = .ready :=
    (congrFun (congrArg Life.state hlife₁) _).trans (update_self _ _ _)
  -- the ids submitted so far are smaller
  have hcareful : Careful s₁ ((createInference, .created st₁ out₁) :: h)
      (.submit (s.taskPoolNext + 1)) := by
    refine ⟨trivial, fun _ _ _ hmem => ?_, trivial⟩
    have hlt := hinv.subLt _ hmem
    rw [hinv.nextId] at hlt
    exact lt_irrefl _ hlt
  obtain ⟨r₂, s₂, Q₂, hends, -⟩ := @exec_spec stillClock _ _ _ _ hinv₁ hcareful trivial
  have hsubmit := hends.of_lt (Nat.lt_succ_self MAX_TASKS)
  obtain ⟨⟨st, s₂⟩, hsubmit', rfl, rfl⟩ := Outcome.of_map₂ hsubmit
  obtain ⟨rfl, hlife₂⟩ := aiTaskSubmit_ready hfind hready hsubmit'
  exact ⟨s₂, _, .call hr₁ hcareful hsubmit, List.mem_cons_self, hlife₁ ▸ hlife₂⟩

/-- Tasks are created, submitted and destroyed until the pool is used up. -/
theorem exists_all_destroyed : ∀ n ≤ MAX_TASKS, ∃ s h, Reach stillClock Careful s h ∧
    s.taskPoolNext = n ∧ ∀ i < n, s.life.state i = .completed := by
  intro n
  induction n with
  | zero =>
    intro _
    exact ⟨start, [], reach_start, rfl, fun i hi => absurd hi (Nat.not_lt_zero i)⟩
  | succ n ih =>
    intro hn
    obtain ⟨s, h, hr, rfl, hdone⟩ := ih (Nat.le_of_succ_le hn)
    obtain ⟨s₁, h₁, hr₁, hsub, hlife₁⟩ := exists_submitted hr hn
    obtain ⟨⟨Q₁, hinv₁⟩, -⟩ := hr₁.inv fun _ _ _ _ hc => hc
    have hcreated : s₁.taskPoolNext = s.taskPoolNext + 1 := congrArg Life.created hlife₁
    have hfind := hinv₁.findTask_eq (i := s.taskPoolNext) (by omega)
    have hcall : exec stillClock (.destroy (s.taskPoolNext + 1)) s₁ 0 =
        .done (.status (aiTaskDestroy (s.taskPoolNext + 1) s₁).1,
          (aiTaskDestroy (s.taskPoolNext + 1) s₁).2) := rfl
    have hlife := aiTaskDestroy_life hfind
    refine ⟨_, _, .call hr₁ (careful_destroy hsub) hcall, ?_, fun i hi => ?_⟩
    · exact (congrArg Life.created hlife).trans hcreated
    · rw [hlife, hlife₁, Life.destroy_state]
      rcases Nat.lt_succ_iff_lt_or_eq.mp hi with hlt | rfl
      · have hne := hlt.ne
        rw [update_of_ne hne, Life.mark_state, update_of_ne hne, Life.create_state]
        exact (update_of_ne hne _ _).trans (hdone i hlt)
      · exact update_self _ _ _

/-- All 256 tasks ever created have been destroyed, and `ai_task_create` fails. -/
theorem create_fails_all_destroyed : ∃ s h, Reach stillClock Careful s h ∧
    tasksIn s TaskState.live = 0 ∧
    exec stillClock createInference s 0 = .done (.created .errNomem none, s) := by
  obtain ⟨s, h, hr, hcreated, hdone⟩ := exists_all_destroyed MAX_TASKS le_rfl
  obtain ⟨st, out, s', hcall, -, hfull⟩ := exec_create stillClock _ _ _ s 0
  obtain ⟨rfl, rfl, rfl⟩ := hfull hcreated.symm.le
  refine ⟨s', h, hr, census_none fun i hi => ?_, hcall⟩
  rw [show (s'.taskPool i).state = .completed from hdone i (hcreated ▸ hi)]
  rfl

end AiosKernel.Sched
