/-
# `AiosKernel.Sched.Lifecycle` — the lives of tasks

The queues decide which task runs next, but the life of a task is its state, the
pointer to the current task and four counters.  `Life` is a scheduler that knows
no more than that, and has one operation for each way a task can move.  What a
call may do to it (`Moves`) does not depend on the queues being in order;
`ai_sched_pick_next` is a sequence of such operations (`Picks`).
-/
import AiosKernel.Sched.Runs

namespace AiosKernel.Sched

open Word DList SchedState Outcome Function

/-! ## The abstract scheduler -/

/-- The tasks created so far, the state of each, the current one, and the counters. -/
structure Life where
  created : Nat
  state : Nat → TaskState
  current : Option Nat
  total : Nat
  active : Nat
  completed : Nat
  failed : Nat

namespace Life

def mark (i : Nat) (st : TaskState) (l : Life) : Life :=
  { l with state := update l.state i st }

def create (l : Life) : Life :=
  { l with
    created := l.created + 1
    state := update l.state l.created .ready
    total := u64 (l.total + 1)
    active := u64 (l.active + 1) }

/-- A running task stops being the current one. -/
def withdraw (i : Nat) (l : Life) : Life :=
  { l with current := if l.state i = .running then none else l.current }

def destroy (i : Nat) (l : Life) : Life :=
  { (l.withdraw i).mark i .completed with
    active := sub64 l.active 1
    completed := u64 (l.completed + 1) }

def suspend (i : Nat) (l : Life) : Life := (l.withdraw i).mark i .suspended

/-- A task that missed its deadline fails. -/
def fail (i : Nat) (l : Life) : Life :=
  { l.mark i .failed with
    failed := u64 (l.failed + 1)
    active := sub64 l.active 1 }

/-- A task becomes the current one; what was current keeps its state. -/
def run (i : Nat) (l : Life) : Life := { l.mark i .running with current := some i }

/-- A task goes back to its queue, and none is current. -/
def requeue (i : Nat) (l : Life) : Life := { l.mark i .ready with current := none }

@[simp] theorem mark_state (i : Nat) (st : TaskState) (l : Life) :
    (l.mark i st).state = update l.state i st := rfl

@[simp] theorem create_state (l : Life) :
    l.create.state = update l.state l.created .ready := rfl

@[simp] theorem destroy_state (i : Nat) (l : Life) :
    (l.destroy i).state = update l.state i .completed := rfl

@[simp] theorem mark_self (i : Nat) (l : Life) : l.mark i (l.state i) = l := by
  simp [mark]

end Life

def SchedState.life (s : SchedState) : Life where
  created := s.taskPoolNext
  state i := (s.taskPool i).state
  current := s.currentTask
  total := s.schedStats.totalTasks
  active := s.schedStats.activeTasks
  completed := s.schedStats.completedTasks
  failed := s.schedStats.failedTasks

/-! ## What the writes do to lives -/

section

variable {s s' : SchedState} {clk : Nat → Nat} {fuel i id : Nat}

@[simp] theorem tickClock_life : s.tickClock.life = s.life := rfl

@[simp] theorem setSize_life (l : Level) (n : Nat) : (s.setSize l n).life = s.life := rfl

theorem setTask_life (s : SchedState) (i : Nat) (f : AiTask → AiTask) :
    (s.setTask i f).life = s.life.mark i (f (s.taskPool i)).state := by
  simp only [life, Life.mark, Life.mk.injEq, setTask, and_true, true_and]
  exact comp_update AiTask.state s.taskPool i _

theorem setTask_life_of_eq (f : AiTask → AiTask)
    (hf : ∀ t, (f t).state = t.state) : (s.setTask i f).life = s.life := by
  rw [setTask_life, hf]
  exact Life.mark_self i s.life

theorem Relinked.life (h : Relinked s s') (hstats : s'.schedStats = s.schedStats) :
    s'.life = s.life := by
  simp only [SchedState.life, h.poolNext, h.current, hstats, h.state]

theorem setTask?_schedStats (i : Option Nat) (f : AiTask → AiTask) :
    (s.setTask? i f).schedStats = s.schedStats := by
  cases i <;> rfl

theorem link_relinked {l : Level} (h : s.link fuel i l = .done s') :
    Relinked s s' ∧ s'.schedStats = s.schedStats := by
  have hfront : Relinked s (s.linkFront i l) ∧ (s.linkFront i l).schedStats = s.schedStats :=
    ⟨Relinked.linkFront s i l, setTask?_schedStats _ _⟩
  unfold link at h
  split at h
  · cases h
    exact hfront
  · split at h
    · cases h
      exact hfront
    · split at h
      · cases h
      · cases h
        exact ⟨Relinked.linkAfter s i _, setTask?_schedStats _ _⟩

theorem link_life {l : Level} (h : s.link fuel i l = .done s') : s'.life = s.life :=
  (link_relinked h).1.life (link_relinked h).2

theorem dequeueTask_schedStats : (s.dequeueTask i).schedStats = s.schedStats := by
  refine (setTask?_schedStats _ _).trans ?_
  cases (s.taskPool i).prev <;> rfl

@[simp] theorem dequeueTask_life : (s.dequeueTask i).life = s.life :=
  (Relinked.dequeueTask s i).life dequeueTask_schedStats

theorem enqueueTask_life (h : s.enqueueTask fuel clk i = .done s') :
    s'.life = s.life.mark i .ready := by
  obtain ⟨s₁, hlink, rfl⟩ := of_map h
  rw [← link_life hlink, tickClock_life, setTask_life, setSize_life]

theorem withdraw_life : (withdraw s i).life = s.life.withdraw i := by
  have hstate : s.life.state i = (s.taskPool i).state := rfl
  unfold withdraw Life.withdraw
  cases hst : (s.taskPool i).state with
  | running => simp only [hstate, hst, if_true]; rfl
  | ready =>
    simp only [hstate, hst, dequeueTask_life]
    rfl
  | _ => simp only [hstate, hst]; rfl

theorem requeue_life (h : requeue fuel clk s i = .done s') : s'.life = s.life.requeue i :=
  enqueueTask_life h

/-! ## The calls are moves -/

/-- What a call other than `ai_sched_pick_next` does to lives. -/
inductive Moves (s : SchedState) : Call → Life → Prop where
  | still {c : Call} : Moves s c s.life
  | create {name : String} {workload : WorkloadType} {params : Option SchedParams} {hasOut : Bool}
      (room : s.taskPoolNext < MAX_TASKS) : Moves s (.create name workload params hasOut) s.life.create
  | destroy {id i : Nat} (found : s.findTask id = some i) : Moves s (.destroy id) (s.life.destroy i)
  | suspend {id i : Nat} (found : s.findTask id = some i) : Moves s (.suspend id) (s.life.suspend i)
  /-- `ai_task_submit`, `ai_task_resume` and `ai_task_set_priority`. -/
  | queue {c : Call} {i : Nat} (lt : i < s.taskPoolNext)
      (state : (s.taskPool i).state = .ready ∨ (s.taskPool i).state = .suspended) :
      Moves s c (s.life.mark i .ready)
  /-- `ai_sched_tick`, `ai_sched_yield` and `ai_sched_preempt`. -/
  | requeue {c : Call} {i : Nat}
      (running : s.currentTask = some i ∨ i < s.taskPoolNext ∧ (s.taskPool i).state = .running) :
      Moves s c (s.life.requeue i)

section

variable (clk : Nat → Nat) (name : String) (workload : WorkloadType) (params : SchedParams)

theorem aiTaskCreate_taskPool (hroom : s.taskPoolNext < MAX_TASKS) (j : Nat) :
    (aiTaskCreate clk name workload (some params) true s).2.taskPool j =
      if j = s.taskPoolNext then newTask s.nextTaskId name workload params (s.now clk)
        { s.taskPool s.taskPoolNext with next := none, prev := none }
      else s.taskPool j := by
  simp only [aiTaskCreate, allocTask, if_neg hroom.not_ge]
  simp only [tickClock, setStats, setTask, update_idem, update_apply]
  split
  · rfl
  · rfl

theorem aiTaskCreate_life (hroom : s.taskPoolNext < MAX_TASKS) :
    (aiTaskCreate clk name workload (some params) true s).2.life = s.life.create := by
  simp only [aiTaskCreate, allocTask, if_neg hroom.not_ge]
  simp only [life, Life.create, tickClock, setStats, setTask, Life.mk.injEq, and_true,
    true_and, update_idem]
  funext j
  by_cases hj : j = s.taskPoolNext
  · subst hj
    simp [newTask]
  · rw [update_of_ne hj, update_of_ne hj]

end

theorem aiTaskDestroy_life (hfind : s.findTask id = some i) :
    (aiTaskDestroy id s).2.life = s.life.destroy i := by
  have hlife := setTask_life (withdraw s i) i fun t => { t with state := .completed }
  rw [withdraw_life] at hlife
  have hcounts : ∀ {s₁ : SchedState} {l : Life}, s₁.life = l → (s₁.setStats fun st =>
      { st with activeTasks := sub64 st.activeTasks 1
                completedTasks := u64 (st.completedTasks + 1) }).life =
      { l with active := sub64 l.active 1, completed := u64 (l.completed + 1) } := by
    rintro s₁ l rfl
    rfl
  simp only [aiTaskDestroy, hfind]
  exact hcounts hlife

theorem adoptVruntime_life (l : Level) : (adoptVruntime s i l).life = s.life := by
  unfold adoptVruntime
  split
  · exact setTask_life_of_eq _ fun _ => rfl
  · rfl

theorem aiTaskSubmit_ready {st : AiosStatus} (hfind : s.findTask id = some i)
    (hready : (s.taskPool i).state = .ready) (h : aiTaskSubmit fuel clk id s = .done (st, s')) :
    st = .ok ∧ s'.life = s.life.mark i .ready := by
  have hstate : ¬ ((s.taskPool i).state ≠ .ready ∧ (s.taskPool i).state ≠ .suspended) := by
    intro hne
    exact hne.1 hready
  simp only [aiTaskSubmit, hfind, if_neg hstate] at h
  split at h
  · obtain ⟨s₁, henqueue, rfl, rfl⟩ := of_map₂ h
    rw [enqueueTask_life henqueue, adoptVruntime_life]
    exact ⟨rfl, rfl⟩
  · cases h

theorem enqueueTask_keeps (h : s.enqueueTask fuel clk i = .done s') :
    Frame i s s' ∧ (s'.taskPool i).sched = (s.taskPool i).sched ∧ s'.schedStats = s.schedStats := by
  obtain ⟨s₁, hlink, rfl⟩ := of_map h
  obtain ⟨hr, hstats⟩ := link_relinked hlink
  have hready : ∀ now, Frame i s₁ (s₁.setTask i fun t =>
      { t with state := .ready, lastReadyNs := now }) :=
    fun _ => Frame.setTask s₁ i (fun _ => rfl) fun _ => rfl
  refine ⟨(hr.frame i).trans ?_, ?_, hstats⟩
  · -- the sizes and the clock are no part of the frame
    exact ⟨(hready _).tasks, (hready _).id, (hready _).policy, rfl, rfl⟩
  · rw [← hr.sched i]
    simp [tickClock, setTask, setSize]

/-- What `ai_task_set_priority` does to the task it names. -/
structure Reprioritised (i : Nat) (priority : Int) (s s' : SchedState) : Prop where
  frame : Frame i s s'
  priority_eq : (s'.taskPool i).sched.priority = priority
  stats_eq : s'.schedStats = s.schedStats

/-- `ai_task_set_priority` finds the task and writes its priority, or does nothing. -/
theorem aiTaskSetPriority_cases {priority : Int} {st : AiosStatus}
    (h : aiTaskSetPriority fuel clk id priority s = .done (st, s')) :
    s.findTask id = none ∧ st = .errInval ∧ s' = s ∨
      ∃ i, s.findTask id = some i ∧ st = .ok ∧ Reprioritised i priority s s' := by
  unfold aiTaskSetPriority at h
  split at h
  · rename_i hfind
    cases h
    exact .inl ⟨hfind, rfl, rfl⟩
  · rename_i i hfind
    refine .inr ⟨i, hfind, ?_⟩
    split at h
    · obtain ⟨s₁, henqueue, rfl, rfl⟩ := of_map₂ h
      obtain ⟨hframe, hsched, hstats⟩ := enqueueTask_keeps henqueue
      have hwrite : Frame i s ((s.dequeueTask i).setTask i fun t =>
          { t with sched := { t.sched with priority := priority } }) :=
        ((Relinked.dequeueTask s i).frame i).trans (Frame.setTask _ i (fun _ => rfl) fun _ => rfl)
      refine ⟨rfl, hwrite.trans hframe, ?_, hstats.trans dequeueTask_schedStats⟩
      rw [hsched]
      simp [setTask]
    · cases h
      refine ⟨rfl, Frame.setTask s i (fun _ => rfl) fun _ => rfl, ?_, rfl⟩
      simp [setTask]

theorem Reprioritised.findTask_eq {p : Int} (h : Reprioritised i p s s') (id : Nat) :
    s'.findTask id = s.findTask id := by
  simp only [SchedState.findTask, h.frame.poolNext, h.frame.id_eq]

/-! ## Picking -/

/-- What `ai_sched_pick_next` does: heads of queues fail, and in the end one may run. -/
inductive Picks (clk : Nat → Nat) : SchedState → Option Nat → SchedState → Prop where
  | nothing {s : SchedState} : Picks clk s none s
  | fail {s s' : SchedState} {l : Level} {i : Nat} {task : Option Nat}
      (head : s.runQueues l = some i) (missed : deadlineMissed l (s.taskPool i) = true)
      (rest : Picks clk (failTask s i) task s') : Picks clk s task s'
  | run {s : SchedState} {l : Level} {i : Nat} (head : s.runQueues l = some i) :
      Picks clk s (some i) (runTask clk s i)

theorem pickFrom_picks (clk : Nat → Nat) (ls : List Level) :
    ∀ s : SchedState, Picks clk s (pickFrom clk ls s).1 (pickFrom clk ls s).2 := by
  induction ls with
  | nil =>
    intro s
    exact .nothing
  | cons l ls ih =>
    intro s
    cases hhead : s.runQueues l with
    | none =>
      simp only [pickFrom, hhead]
      exact ih s
    | some i =>
      simp only [pickFrom, hhead]
      split
      · rename_i hmissed
        exact .fail hhead hmissed (ih (failTask s i))
      · exact .run hhead

theorem exec_picks {r : Reply} (hcall : exec clk .pickNext s fuel = .done (r, s')) :
    ∃ task, r = .picked task ∧ Picks clk s task s' := by
  have hpicks := pickFrom_picks clk (List.finRange NUM_PRIORITY_LEVELS) s
  cases hcall
  exact ⟨(aiSchedPickNext clk s).1, rfl, hpicks⟩

theorem failTask_life : (failTask s i).life = s.life.fail i := by
  have hlife := setTask_life (s.dequeueTask i) i fun t => { t with state := .failed }
  rw [dequeueTask_life] at hlife
  have hcounts : ∀ {s₁ : SchedState} {l : Life}, s₁.life = l → (s₁.setStats fun st =>
      { st with failedTasks := u64 (st.failedTasks + 1)
                activeTasks := sub64 st.activeTasks 1 }).life =
      { l with failed := u64 (l.failed + 1), active := sub64 l.active 1 } := by
    rintro s₁ l rfl
    rfl
  exact hcounts hlife

theorem runTask_life : (runTask clk s i).life = s.life.run i := by
  let run := AiTask.picked ((s.dequeueTask i).now clk)
  have hlife := setTask_life (s.dequeueTask i).tickClock i run
  rw [tickClock_life, dequeueTask_life] at hlife
  have hcurrent : ∀ {s₁ : SchedState} {l : Life}, s₁.life = l →
      { s₁ with currentTask := some i }.life = { l with current := some i } := by
    rintro s₁ l rfl
    rfl
  simp only [runTask]
  split
  all_goals exact hcurrent hlife

end

end AiosKernel.Sched
