/-
# `AiosKernel.Sched.Levels` — what every call leaves alone

A careless caller can tie the run queues in knots, yet some things hold in every
run.  Most of what a call does is *quiet*: it moves tasks of the pool between
queues and writes states, statistics and times, but neither the parameters of a
task nor the two times that `ai_sched_tick` accounts with (`Core`).  What is left
are four writes, one each in `ai_task_create`, `ai_task_set_priority`,
`ai_sched_pick_next` and `ai_sched_tick`; `Acts` says where they stand.

The first consequence: heads and links never leave a level, nor the pool.  What
hangs in a queue, in whatever order, are tasks of the queue's policy (`Settled`).
-/
import AiosKernel.Sched.Lifecycle

namespace AiosKernel.Sched

open Word DList SchedState Outcome

section

variable {s s' s'' : SchedState} {clk : Nat → Nat} {fuel i id : Nat}

/-! ## Where links lead -/

/-- Heads, and links of the tasks that belong to a level, name tasks that belong to it. -/
structure Linked (H : Level → Nat → Prop) (s : SchedState) : Prop where
  heads : ∀ l, ∀ j ∈ s.runQueues l, H l j
  next : ∀ l i, H l i → ∀ j ∈ s.next i, H l j
  prev : ∀ l i, H l i → ∀ j ∈ s.prev i, H l j

/-- Tasks that belong to one level together belong to the same levels. -/
def Coherent (H : Level → Nat → Prop) : Prop :=
  ∀ ⦃l i j⦄, H l i → H l j → ∀ l', H l' i → H l' j

/-- A link of the task `i` is what it was, or leads where `i` belongs. -/
def Joins (H : Level → Nat → Prop) (i : Nat) (new old : Option Nat) : Prop :=
  new = old ∨ ∀ l, H l i → ∀ j ∈ new, H l j

section

variable {H : Level → Nat → Prop}

theorem joins_some {k : Nat} {old : Option Nat} (h : ∀ l, H l k → H l i) : Joins H k (some i) old :=
  .inr fun l hk _ hj => Option.mem_some.mp hj ▸ h l hk

namespace Linked

variable {f : AiTask → AiTask}

theorem setTask (h : Linked H s) (i : Nat)
    (hf : ∀ t, Joins H i (f t).next t.next ∧ Joins H i (f t).prev t.prev) :
    Linked H (s.setTask i f) := by
  have hlink : ∀ g : AiTask → Option Nat, (∀ l k, H l k → ∀ j ∈ g (s.taskPool k), H l j) →
      (∀ t, Joins H i (g (f t)) (g t)) →
      ∀ l k, H l k → ∀ j ∈ g ((s.setTask i f).taskPool k), H l j := by
    intro g hg hf l k hk j hj
    rw [setTask_taskPool] at hj
    split at hj
    · rename_i hki
      subst hki
      rcases hf (s.taskPool k) with hsame | hin
      · rw [hsame] at hj
        exact hg l k hk j hj
      · exact hin l hk j hj
    · exact hg l k hk j hj
  exact ⟨h.heads, hlink AiTask.next h.next fun t => (hf t).1,
    hlink AiTask.prev h.prev fun t => (hf t).2⟩

theorem setTask? (h : Linked H s) (i : Option Nat)
    (hf : ∀ k ∈ i, ∀ t, Joins H k (f t).next t.next ∧ Joins H k (f t).prev t.prev) :
    Linked H (s.setTask? i f) := by
  cases i with
  | none => exact h
  | some i => exact h.setTask i (hf i rfl)

theorem setHead (h : Linked H s) (l : Level) {head : Option Nat} (hhead : ∀ j ∈ head, H l j) :
    Linked H (s.setHead l head) := by
  refine ⟨fun l' j hj => ?_, h.next, h.prev⟩
  rw [setHead_runQueues] at hj
  split at hj
  · rename_i hl
    exact hl ▸ hhead j hj
  · exact h.heads l' j hj

theorem setSize (h : Linked H s) (l : Level) (n : Nat) : Linked H (s.setSize l n) :=
  { h with }

theorem tickClock (h : Linked H s) : Linked H s.tickClock := { h with }

variable {l : Level}

section

variable (hH : Coherent H) (h : Linked H s)
include hH h

theorem linkFront (hi : H l i) : Linked H (s.linkFront i l) := by
  refine ((h.setTask i ?_).setTask? (s.runQueues l) ?_).setHead l ?_
  · exact fun t => ⟨.inr fun l' hl' j hj => hH hi (h.heads l j hj) l' hl',
      .inr fun _ _ _ hj => nomatch hj⟩
  · exact fun k hk t => ⟨.inl rfl, joins_some (hH (h.heads l k hk) hi)⟩
  · exact fun j hj => Option.mem_some.mp hj ▸ hi

theorem linkAfter {c : Nat} (hi : H l i) (hc : H l c) : Linked H (s.linkAfter i c) := by
  have hlinked : Linked H (s.setTask i fun t => { t with next := s.next c, prev := some c }) := by
    refine h.setTask i fun t => ⟨.inr ?_, joins_some (hH hi hc)⟩
    exact fun l' hl' j hj => h.next l' c (hH hi hc l' hl') j hj
  dsimp only [SchedState.linkAfter]
  refine (hlinked.setTask? _ ?_).setTask c ?_
  · exact fun k hk t => ⟨.inl rfl, joins_some (hH (hlinked.next l c hc k hk) hi)⟩
  · exact fun t => ⟨joins_some (hH hc hi), .inl rfl⟩

theorem link (hi : H l i) (hlink : s.link fuel i l = .done s') : Linked H s' := by
  unfold SchedState.link at hlink
  split at hlink
  · cases hlink
    exact h.linkFront hH hi
  · rename_i head hhead
    split at hlink
    · cases hlink
      exact h.linkFront hH hi
    · split at hlink
      · cases hlink
      · rename_i curr hwalk
        cases hlink
        exact h.linkAfter hH hi
          (advance_keeps (fun x y hx hy => h.next l x hx y hy) (h.heads l head hhead) hwalk)

theorem enqueueTask (hi : H (s.level i) i)
    (hcall : s.enqueueTask fuel clk i = .done s') : Linked H s' := by
  obtain ⟨s₁, hlink, rfl⟩ := of_map hcall
  refine tickClock (((h.link hH hi hlink).setSize _ _).setTask i ?_)
  exact fun t => ⟨.inl rfl, .inl rfl⟩

theorem dequeueTask (hi : H (s.level i) i) : Linked H (s.dequeueTask i) := by
  have hbypass : Linked H (s.bypass (s.taskPool i).prev (s.taskPool i).next (s.level i)) := by
    cases hprev : (s.taskPool i).prev with
    | none => exact h.setHead _ (h.next _ i hi)
    | some p =>
      have hp := h.prev _ i hi p hprev
      dsimp only [bypass]
      refine h.setTask p ?_
      exact fun t => ⟨.inr fun l' hl' => h.next l' i (hH hp hi l' hl'), .inl rfl⟩
  refine ((hbypass.setTask? _ ?_).setTask i ?_).setSize _ _
  · exact fun k hk t =>
      ⟨.inl rfl, .inr fun l' hl' => h.prev l' i (hH (h.next _ i hi k hk) hi l' hl')⟩
  · exact fun t => ⟨.inr (by simp), .inr (by simp)⟩

end

end Linked

end

/-! ## Quiet steps -/

/-- A part of the state that the writes to tasks and queues leave alone. -/
structure Unlinked {β : Type} (π : SchedState → β) : Prop where
  task : ∀ s i f, π (s.setTask i f) = π s
  head : ∀ s l h, π (s.setHead l h) = π s
  size : ∀ s l n, π (s.setSize l n) = π s

namespace Unlinked

variable {β : Type} {π : SchedState → β}

theorem task? (h : Unlinked π) (i : Option Nat) (f : AiTask → AiTask) :
    π (s.setTask? i f) = π s := by
  cases i with
  | none => rfl
  | some i => exact h.task s i f

theorem dequeueTask (h : Unlinked π) (s : SchedState) (i : Nat) : π (s.dequeueTask i) = π s := by
  refine (h.size _ _ _).trans ((h.task _ _ _).trans ((h.task? _ _).trans ?_))
  cases (s.taskPool i).prev with
  | none => exact h.head _ _ _
  | some p =>
    dsimp only [bypass]
    exact h.task _ _ _

theorem link (h : Unlinked π) {l : Level} (hlink : s.link fuel i l = .done s') : π s' = π s := by
  have hfront : π (s.linkFront i l) = π s :=
    (h.head _ _ _).trans ((h.task? _ _).trans (h.task _ _ _))
  unfold SchedState.link at hlink
  split at hlink
  · cases hlink
    exact hfront
  · split at hlink
    · cases hlink
      exact hfront
    · split at hlink
      · cases hlink
      · cases hlink
        dsimp only [SchedState.linkAfter]
        exact (h.task _ _ _).trans ((h.task? _ _).trans (h.task _ _ _))

end Unlinked

theorem unlinked_frame : Unlinked fun s => (s.taskPoolNext, s.schedReady) :=
  ⟨fun _ _ _ => rfl, fun _ _ _ => rfl, fun _ _ _ => rfl⟩

/-- The parameters of a task, and the times it is charged by. -/
structure Core where
  sched : SchedParams
  execTime : Nat
  lastScheduled : Nat

def AiTask.core (t : AiTask) : Core := ⟨t.sched, t.execTime, t.lastScheduled⟩

/-- A write of fields that are neither links nor part of the core. -/
structure QuietWrite (f : AiTask → AiTask) : Prop where
  core : ∀ t, (f t).core = t.core
  next : ∀ t, (f t).next = t.next
  prev : ∀ t, (f t).prev = t.prev

theorem quietWrite_state (st : TaskState) : QuietWrite fun t => { t with state := st } :=
  ⟨fun _ => rfl, fun _ => rfl, fun _ => rfl⟩

/-- Tasks are moved between queues, and quiet writes are made. -/
inductive Quiet (clk : Nat → Nat) (s : SchedState) : SchedState → Prop where
  | refl : Quiet clk s s
  | enqueue {s₁ s₂ : SchedState} {fuel i : Nat} (before : Quiet clk s s₁)
      (lt : i < s₁.taskPoolNext) (call : s₁.enqueueTask fuel clk i = .done s₂) : Quiet clk s s₂
  | dequeue {s₁ : SchedState} {i : Nat} (before : Quiet clk s s₁) (lt : i < s₁.taskPoolNext) :
      Quiet clk s (s₁.dequeueTask i)
  | write {s₁ : SchedState} {f : AiTask → AiTask} (before : Quiet clk s s₁) (i : Nat)
      (quiet : QuietWrite f) : Quiet clk s (s₁.setTask i f)
  /-- Statistics, the clock and the pointer to the current task. -/
  | other {s₁ s₂ : SchedState} (before : Quiet clk s s₁) (tasks : s₂.taskPool = s₁.taskPool)
      (heads : s₂.runQueues = s₁.runQueues) (poolNext : s₂.taskPoolNext = s₁.taskPoolNext)
      (ready : s₂.schedReady = s₁.schedReady) : Quiet clk s s₂

theorem Relinked.core (h : Relinked s s') (j : Nat) :
    (s'.taskPool j).core = (s.taskPool j).core := by
  show (s'.taskPool j).unlinked.core = (s.taskPool j).unlinked.core
  rw [h.tasks j]

theorem enqueueTask_proj {β : Type} {π : AiTask → β} (hlinks : ∀ t, π t.unlinked = π t)
    (hready : ∀ t now, π { t with state := .ready, lastReadyNs := now } = π t)
    (h : s.enqueueTask fuel clk i = .done s') (j : Nat) : π (s'.taskPool j) = π (s.taskPool j) := by
  obtain ⟨s₁, hlink, rfl⟩ := of_map h
  have htask : π (s₁.taskPool j) = π (s.taskPool j) := by
    rw [← hlinks, (link_relinked hlink).1.tasks j, hlinks]
  exact (setTask_keeps (s₁.setSize _ _) i j _ fun t => hready t _).trans htask

namespace Quiet

section

variable (h : Quiet clk s s')
include h

theorem trans (h' : Quiet clk s' s'') : Quiet clk s s'' := by
  induction h' with
  | refl => exact h
  | enqueue _ lt call ih => exact .enqueue ih lt call
  | dequeue _ lt ih => exact .dequeue ih lt
  | write _ i quiet ih => exact .write ih i quiet
  | other _ tasks heads poolNext ready ih => exact .other ih tasks heads poolNext ready

theorem frame_eq : (s'.taskPoolNext, s'.schedReady) = (s.taskPoolNext, s.schedReady) := by
  induction h with
  | refl => rfl
  | enqueue _ _ call ih =>
    obtain ⟨s₁, hlink, rfl⟩ := of_map call
    exact (unlinked_frame.link hlink).trans ih
  | dequeue _ _ ih => exact (unlinked_frame.dequeueTask _ _).trans ih
  | write _ _ _ ih => exact ih
  | other _ _ _ poolNext ready ih => exact (Prod.ext poolNext ready).trans ih

theorem poolNext_eq : s'.taskPoolNext = s.taskPoolNext := congrArg Prod.fst h.frame_eq

theorem schedReady_eq : s'.schedReady = s.schedReady := congrArg Prod.snd h.frame_eq

theorem core_eq (j : Nat) : (s'.taskPool j).core = (s.taskPool j).core := by
  induction h with
  | refl => rfl
  | enqueue _ _ call ih =>
    exact (enqueueTask_proj (fun _ => rfl) (fun _ _ => rfl) call j).trans ih
  | dequeue _ _ ih => exact ((Relinked.dequeueTask _ _).core j).trans ih
  | write _ i quiet ih => exact (setTask_keeps _ i j _ quiet.core).trans ih
  | other _ tasks _ _ _ ih => rw [tasks, ih]

theorem sched_eq (j : Nat) : (s'.taskPool j).sched = (s.taskPool j).sched :=
  congrArg Core.sched (h.core_eq j)

theorem level_eq (j : Nat) : s'.level j = s.level j := by
  rw [SchedState.level, SchedState.level, h.sched_eq j]

theorem linked {H : Level → Nat → Prop} (hH : Coherent H)
    (hmem : ∀ j < s.taskPoolNext, H (s.level j) j) (hs : Linked H s) : Linked H s' := by
  -- a task belongs where its level says in every state on the way
  have hstay : ∀ {s₁ : SchedState} {j : Nat}, Quiet clk s s₁ → j < s₁.taskPoolNext →
      H (s₁.level j) j := by
    intro s₁ j h₁ hj
    rw [h₁.level_eq]
    exact hmem j (h₁.poolNext_eq ▸ hj)
  induction h with
  | refl => exact hs
  | enqueue before lt call ih => exact ih.enqueueTask hH (hstay before lt) call
  | dequeue before lt ih => exact ih.dequeueTask hH (hstay before lt)
  | write _ i quiet ih => exact ih.setTask i fun t => ⟨.inl (quiet.next t), .inl (quiet.prev t)⟩
  | @other s₁ s₂ _ tasks heads _ _ ih =>
    have hnext : s₂.next = s₁.next := by
      funext j
      rw [SchedState.next, SchedState.next, tasks]
    have hprev : s₂.prev = s₁.prev := by
      funext j
      rw [SchedState.prev, SchedState.prev, tasks]
    refine ⟨fun l j hj => ih.heads l j ?_, fun l k hk j hj => ih.next l k hk j ?_,
      fun l k hk j hj => ih.prev l k hk j ?_⟩
    · rwa [← heads]
    · rwa [← hnext]
    · rwa [← hprev]

theorem setStats (f : SchedStats → SchedStats) : Quiet clk s (s'.setStats f) :=
  h.other rfl rfl rfl rfl

end

theorem withdraw (s : SchedState) (hi : i < s.taskPoolNext) : Quiet clk s (Sched.withdraw s i) := by
  unfold Sched.withdraw
  split
  · exact Quiet.refl.other rfl rfl rfl rfl
  · exact Quiet.refl.dequeue hi
  · exact .refl

end Quiet

/-! ## The four other writes -/

/-- `ai_sched_tick` charges the current task for the time since it was picked. -/
def charge (clk : Nat → Nat) (s : SchedState) (i : Nat) : SchedState :=
  let elapsedNs := sub64 (s.now clk) (s.taskPool i).lastScheduled
  s.setTask i fun t =>
    { t with
      vruntime := u64 (t.vruntime + elapsedNs / calcWeight t.sched)
      execTime := u64 (t.execTime + elapsedNs) }

/-- The state in which `ai_sched_tick` then looks for another task. -/
def charged (clk : Nat → Nat) (s : SchedState) (i : Nat) : SchedState :=
  { charge clk s i with tickCount := u64 (s.tickCount + 1), readings := s.readings + 1 }

theorem aiSchedTick_of_weight (fuel : Nat) (clk : Nat → Nat) (hcur : s.currentTask = some i)
    (hweight : calcWeight (s.taskPool i).sched ≠ 0) :
    aiSchedTick fuel clk s = checkCurrent fuel clk (charged clk s i) i
      (sub64 (s.now clk) (s.taskPool i).lastScheduled) := by
  have hupd : { s with tickCount := u64 (s.tickCount + 1) }.tickClock.updateVruntime i
      (sub64 (s.now clk) (s.taskPool i).lastScheduled) = .done (charged clk s i) :=
    if_neg hweight
  rw [aiSchedTick_of_current fuel clk hcur, hupd]
  rfl

/-- `ai_task_set_priority` writes the priority. -/
def prioritise (s : SchedState) (i : Nat) (priority : Int) : SchedState :=
  s.setTask i fun t => { t with sched := { t.sched with priority := priority } }

/-- What a call does: it is quiet, or it is quiet around one write. -/
inductive Acts (clk : Nat → Nat) (s : SchedState) : Call → Reply → SchedState → Prop where
  | quiet {c : Call} {r : Reply} {s' : SchedState} (idle : c = .tick → s.currentTask = none)
      (none_picked : ∀ i, r ≠ .picked (some i)) (steps : Quiet clk s s') : Acts clk s c r s'
  | create {name : String} {workload : WorkloadType} {params : SchedParams} {r : Reply}
      (room : s.taskPoolNext < MAX_TASKS) :
      Acts clk s (.create name workload (some params) true) r
        (aiTaskCreate clk name workload (some params) true s).2
  | setPriority {id i : Nat} {priority : Int} {r : Reply} {s₁ s' : SchedState}
      (lt : i < s.taskPoolNext) (before : Quiet clk s s₁)
      (after : Quiet clk (prioritise s₁ i priority) s') :
      Acts clk s (.setPriority id priority) r s'
  | pick {l : Level} {i : Nat} {s₁ : SchedState} (before : Quiet clk s s₁)
      (readings : s₁.readings = s.readings) (head : s₁.runQueues l = some i) :
      Acts clk s .pickNext (.picked (some i)) (runTask clk s₁ i)
  | tick {i : Nat} {r : Reply} {s' : SchedState} (current : s.currentTask = some i)
      (after : Quiet clk (charge clk s i) s') : Acts clk s .tick r s'

theorem dequeueTask_readings : (s.dequeueTask i).readings = s.readings :=
  Unlinked.dequeueTask ⟨fun _ _ _ => rfl, fun _ _ _ => rfl, fun _ _ _ => rfl⟩ s i

section

variable (clk : Nat → Nat) (s : SchedState) (i j : Nat)

theorem charge_core :
    ((charge clk s i).taskPool j).core = if j = i then
      { (s.taskPool i).core with
        execTime := u64 ((s.taskPool i).execTime + sub64 (s.now clk) (s.taskPool i).lastScheduled) }
      else (s.taskPool j).core := by
  rw [charge, setTask_taskPool]
  split <;> rfl

theorem runTask_taskPool :
    (runTask clk s i).taskPool j = ((s.dequeueTask i).tickClock.setTask i fun t =>
      { t with state := .running, lastScheduled := (s.dequeueTask i).now clk
               waitTime := u64 (t.waitTime + sub64 ((s.dequeueTask i).now clk) t.lastReadyNs) }
      ).taskPool j := by
  simp only [runTask]
  split <;> rfl

theorem runTask_core :
    ((runTask clk s i).taskPool j).core = if j = i then
      { (s.taskPool i).core with lastScheduled := s.now clk } else (s.taskPool j).core := by
  have hnow : (s.dequeueTask i).now clk = s.now clk := by
    rw [SchedState.now, SchedState.now, dequeueTask_readings]
  have hcore := (Relinked.dequeueTask s i).core
  rw [runTask_taskPool, setTask_taskPool]
  by_cases hj : j = i
  · rw [if_pos hj, if_pos hj, ← hcore i, ← hnow]
    rfl
  · rw [if_neg hj, if_neg hj]
    exact hcore j

theorem charge_sched : ((charge clk s i).taskPool j).sched = (s.taskPool j).sched := by
  rw [charge]
  refine setTask_keeps s i j _ (π := AiTask.sched) ?_
  exact fun _ => rfl

theorem runTask_sched : ((runTask clk s i).taskPool j).sched = (s.taskPool j).sched := by
  rw [runTask_taskPool]
  refine (setTask_keeps _ i j _ (π := AiTask.sched) ?_).trans
    (congrArg Core.sched ((Relinked.dequeueTask s i).core j))
  exact fun _ => rfl

end

/-! ## The calls -/

/-- Quiet steps from `s₀` amount to a move of the call from `s`. -/
structure QuietMove (clk : Nat → Nat) (s₀ s : SchedState) (c : Call) (s' : SchedState) : Prop where
  moves : Moves s c s'.life
  steps : Quiet clk s₀ s'

/-- A call other than `ai_sched_pick_next` is a move, acts, and picks no task. -/
structure Effect (clk : Nat → Nat) (s : SchedState) (c : Call) (r : Reply) (s' : SchedState) :
    Prop where
  moves : Moves s c s'.life
  acts : Acts clk s c r s'
  none_picked : ∀ i, r ≠ .picked (some i)

section

variable {c : Call} {r : Reply} {st : AiosStatus} {s₀ s₁ : SchedState}

theorem QuietMove.still : QuietMove clk s s c s := ⟨.still, .refl⟩

theorem QuietMove.effect (h : QuietMove clk s s c s') (hc : c ≠ .tick)
    (hr : ∀ i, r ≠ .picked (some i)) : Effect clk s c r s' :=
  ⟨h.moves, .quiet (fun ht => absurd ht hc) hr h.steps, hr⟩

theorem QuietMove.setStats (h : QuietMove clk s₀ s c s') {f : SchedStats → SchedStats}
    (hf : (s'.setStats f).life = s'.life) : QuietMove clk s₀ s c (s'.setStats f) :=
  ⟨hf ▸ h.moves, h.steps.setStats f⟩

theorem enqueueTask_move (hlife : s₁.life = s.life) (hq : Quiet clk s₀ s₁) (hi : i < s.taskPoolNext)
    (hstate : (s.taskPool i).state = .ready ∨ (s.taskPool i).state = .suspended)
    (hcall : s₁.enqueueTask fuel clk i = .done s') : QuietMove clk s₀ s c s' := by
  have hcreated : s₁.taskPoolNext = s.taskPoolNext := congrArg Life.created hlife
  refine ⟨?_, hq.enqueue (hcreated ▸ hi) hcall⟩
  rw [enqueueTask_life hcall, hlife]
  exact .queue hi hstate

theorem requeue_move (hlife : s₁.life = s.life) (hq : Quiet clk s₀ s₁) (hi : i < s.taskPoolNext)
    (hrunning : s.currentTask = some i ∨ i < s.taskPoolNext ∧ (s.taskPool i).state = .running)
    (hcall : requeue fuel clk s₁ i = .done s') : QuietMove clk s₀ s c s' := by
  have hcreated : s₁.taskPoolNext = s.taskPoolNext := congrArg Life.created hlife
  have hnone : Quiet clk s₀ { s₁ with currentTask := none } := hq.other rfl rfl rfl rfl
  refine ⟨?_, hnone.enqueue (show i < s₁.taskPoolNext from hcreated ▸ hi) hcall⟩
  rw [requeue_life hcall, hlife]
  exact .requeue hrunning

theorem aiTaskCreate_effect (name : String) (workload : WorkloadType)
    (params : Option SchedParams) (hasOut : Bool) (hr : ∀ i, r ≠ .picked (some i)) :
    Effect clk s (.create name workload params hasOut) r
      (aiTaskCreate clk name workload params hasOut s).2 := by
  cases params with
  | none => exact QuietMove.still.effect (by simp) hr
  | some params =>
    cases hasOut with
    | false => exact QuietMove.still.effect (by simp) hr
    | true =>
      rcases Nat.lt_or_ge s.taskPoolNext MAX_TASKS with hroom | hfull
      · exact ⟨aiTaskCreate_life clk name workload params hroom ▸ .create hroom, .create hroom, hr⟩
      · simp only [aiTaskCreate, allocTask, if_pos hfull]
        exact QuietMove.still.effect (by simp) hr

theorem aiTaskDestroy_move : QuietMove clk s s (.destroy id) (aiTaskDestroy id s).2 := by
  cases hfind : s.findTask id with
  | none =>
    simp only [aiTaskDestroy, hfind]
    exact .still
  | some i =>
    refine ⟨aiTaskDestroy_life hfind ▸ .destroy hfind, ?_⟩
    simp only [aiTaskDestroy, hfind]
    exact ((Quiet.withdraw s (findTask_some hfind).1).write i (quietWrite_state _)).setStats _

theorem aiTaskSuspend_move : QuietMove clk s s (.suspend id) (aiTaskSuspend id s).2 := by
  unfold aiTaskSuspend
  split
  · exact .still
  · rename_i i hfind
    refine ⟨?_, (Quiet.withdraw s (findTask_some hfind).1).write i (quietWrite_state _)⟩
    have hlife := setTask_life (withdraw s i) i fun t => { t with state := .suspended }
    rw [withdraw_life] at hlife
    rw [hlife]
    exact .suspend hfind

theorem adoptVruntime_quiet (l : Level) : Quiet clk s (adoptVruntime s i l) := by
  unfold adoptVruntime
  split
  · exact Quiet.refl.write i ⟨fun _ => rfl, fun _ => rfl, fun _ => rfl⟩
  · exact .refl

theorem aiTaskSubmit_move (h : aiTaskSubmit fuel clk id s = .done (st, s')) :
    QuietMove clk s s c s' := by
  unfold aiTaskSubmit at h
  split at h
  · cases h
    exact .still
  · rename_i i hfind
    dsimp only at h
    split at h
    · cases h
      exact .still
    · rename_i hstate
      split at h
      · obtain ⟨s₁, henqueue, -, rfl⟩ := of_map₂ h
        refine enqueueTask_move (adoptVruntime_life _) (adoptVruntime_quiet _)
          (findTask_some hfind).1 ?_ henqueue
        by_contra hnot
        exact hstate (not_or.mp hnot)
      · cases h

theorem aiTaskResume_move (h : aiTaskResume fuel clk id s = .done (st, s')) :
    QuietMove clk s s c s' := by
  unfold aiTaskResume at h
  split at h
  · cases h
    exact .still
  · rename_i i hfind
    split at h
    · cases h
      exact .still
    · rename_i hstate
      obtain ⟨s₁, henqueue, -, rfl⟩ := of_map₂ h
      exact enqueueTask_move rfl .refl (findTask_some hfind).1 (.inr (not_not.mp hstate)) henqueue

theorem aiTaskSetPriority_effect {priority : Int} (hr : ∀ i, r ≠ .picked (some i))
    (h : aiTaskSetPriority fuel clk id priority s = .done (st, s')) :
    Effect clk s (.setPriority id priority) r s' := by
  unfold aiTaskSetPriority at h
  split at h
  · cases h
    exact QuietMove.still.effect (by simp) hr
  · rename_i i hfind
    have hi := (findTask_some hfind).1
    have hlife : ∀ s₁ : SchedState, (prioritise s₁ i priority).life = s₁.life :=
      fun s₁ => setTask_life_of_eq _ fun _ => rfl
    split at h
    · rename_i hready
      obtain ⟨s₁, henqueue, -, rfl⟩ := of_map₂ h
      have hmove : QuietMove clk (prioritise (s.dequeueTask i) i priority) s
          (.setPriority id priority) s₁ :=
        enqueueTask_move ((hlife _).trans dequeueTask_life) .refl hi (.inl hready) henqueue
      exact ⟨hmove.moves, .setPriority hi (Quiet.refl.dequeue hi) hmove.steps, hr⟩
    · cases h
      exact ⟨(hlife s).symm ▸ .still, .setPriority hi .refl .refl, hr⟩

theorem aiSchedTick_effect (hcurrent : ∀ i ∈ s.currentTask, i < s.taskPoolNext)
    (hr : ∀ i, r ≠ .picked (some i)) (h : aiSchedTick fuel clk s = .done s') :
    Effect clk s .tick r s' := by
  cases hcur : s.currentTask with
  | none =>
    simp only [aiSchedTick, hcur] at h
    cases h
    have hlife : { s with currentTask := none, tickCount := u64 (s.tickCount + 1) }.life =
        s.life := by
      simp only [life, hcur]
    exact ⟨hlife ▸ .still, .quiet (fun _ => hcur) hr (Quiet.refl.other rfl rfl rfl rfl), hr⟩
  | some i =>
    have hweight : calcWeight (s.taskPool i).sched ≠ 0 := by
      intro hzero
      rw [aiSchedTick_of_weight_zero fuel clk hcur hzero] at h
      cases h
    rw [aiSchedTick_of_weight fuel clk hcur hweight] at h
    -- charging the current task moves nothing
    have hlife : (charged clk s i).life = s.life := by
      refine (setTask_life_of_eq _ ?_ : (charge clk s i).life = s.life)
      exact fun _ => rfl
    have hq : Quiet clk (charge clk s i) (charged clk s i) := Quiet.refl.other rfl rfl rfl rfl
    have hi := hcurrent i hcur
    suffices hmove : QuietMove clk (charge clk s i) s .tick s' from
      ⟨hmove.moves, .tick hcur hmove.steps, hr⟩
    unfold checkCurrent at h
    split at h
    · exact requeue_move hlife hq hi (.inl hcur) h
    · obtain ⟨b, -, hrest⟩ := bind_eq_done.mp h
      cases b with
      | true =>
        obtain ⟨s₂, hrequeue, rfl⟩ := of_map hrest
        exact (requeue_move hlife hq hi (.inl hcur) hrequeue).setStats rfl
      | false =>
        cases hrest
        exact ⟨hlife ▸ .still, hq⟩

theorem aiSchedYield_move (hcurrent : ∀ i ∈ s.currentTask, i < s.taskPoolNext)
    (h : aiSchedYield fuel clk s = .done s') : QuietMove clk s s c s' := by
  unfold aiSchedYield at h
  split at h
  · cases h
    exact .still
  · rename_i i hcur
    exact requeue_move rfl .refl (hcurrent i hcur) (.inl hcur) h

theorem aiSchedPreempt_move (h : aiSchedPreempt fuel clk id s = .done s') :
    QuietMove clk s s c s' := by
  unfold aiSchedPreempt at h
  split at h
  · cases h
    exact .still
  · rename_i i hfind
    split at h
    · cases h
      exact .still
    · rename_i hstate
      obtain ⟨s₁, hrequeue, rfl⟩ := of_map h
      have hi := (findTask_some hfind).1
      exact (requeue_move rfl .refl hi (.inr ⟨hi, not_not.mp hstate⟩) hrequeue).setStats rfl

theorem exec_effect (hcurrent : ∀ i ∈ s.currentTask, i < s.taskPoolNext) (hc : c ≠ .pickNext)
    (hcall : exec clk c s fuel = .done (r, s')) : Effect clk s c r s' := by
  cases c with
  | create name workload params hasOut =>
    cases hcall
    exact aiTaskCreate_effect name workload params hasOut nofun
  | destroy id =>
    cases hcall
    exact aiTaskDestroy_move.effect nofun nofun
  | submit id =>
    obtain ⟨⟨st, s₁⟩, hsubmit, rfl, rfl⟩ := of_map₂ hcall
    exact (aiTaskSubmit_move hsubmit).effect nofun nofun
  | suspend id =>
    cases hcall
    exact aiTaskSuspend_move.effect nofun nofun
  | resume id =>
    obtain ⟨⟨st, s₁⟩, hresume, rfl, rfl⟩ := of_map₂ hcall
    exact (aiTaskResume_move hresume).effect nofun nofun
  | setPriority id priority =>
    obtain ⟨⟨st, s₁⟩, hset, rfl, rfl⟩ := of_map₂ hcall
    exact aiTaskSetPriority_effect nofun hset
  | pickNext => exact absurd rfl hc
  | tick =>
    obtain ⟨s₁, htick, rfl, rfl⟩ := of_map₂ hcall
    exact aiSchedTick_effect hcurrent nofun htick
  | yield =>
    obtain ⟨s₁, hyield, rfl, rfl⟩ := of_map₂ hcall
    exact (aiSchedYield_move hcurrent hyield).effect nofun nofun
  | preempt id =>
    obtain ⟨s₁, hpreempt, rfl, rfl⟩ := of_map₂ hcall
    exact (aiSchedPreempt_move hpreempt).effect nofun nofun

end

/-! ## Links stay in their level -/

/-- The tasks of the pool belong to the level of their policy. -/
def SchedState.Member (s : SchedState) (l : Level) (i : Nat) : Prop :=
  i < s.taskPoolNext ∧ s.level i = l

/-- Heads and links of a level lead to tasks of the level. -/
def Leveled (s : SchedState) : Prop := Linked s.Member s

theorem coherent_member : Coherent s.Member := by
  intro l i j hi hj l' hi'
  exact ⟨hj.1, hj.2.trans (hi.2.symm.trans hi'.2)⟩

theorem Leveled.congr (h : Linked s.Member s') (hnext : s'.taskPoolNext = s.taskPoolNext)
    (hlevel : ∀ j, s'.level j = s.level j) : Leveled s' := by
  have hmember : s'.Member = s.Member := by
    funext l j
    rw [SchedState.Member, SchedState.Member, hnext, hlevel]
  rw [Leveled, hmember]
  exact h

theorem Leveled.quiet (h : Leveled s) (hq : Quiet clk s s') : Leveled s' :=
  .congr (hq.linked coherent_member (fun _ hj => ⟨hj, rfl⟩) h) hq.poolNext_eq hq.level_eq

theorem Leveled.write (h : Leveled s) (i : Nat) {f : AiTask → AiTask}
    (hf : ∀ t, (f t).next = t.next ∧ (f t).prev = t.prev)
    (hpolicy : ∀ t, (f t).sched.policy = t.sched.policy) : Leveled (s.setTask i f) := by
  refine .congr (h.setTask i fun t => ⟨.inl (hf t).1, .inl (hf t).2⟩) rfl fun j => ?_
  exact congrArg queueLevel (setTask_keeps s i j f (π := fun t => t.sched.policy) hpolicy)

theorem Leveled.runTask (h : Leveled s) (hi : i < s.taskPoolNext) : Leveled (runTask clk s i) := by
  let run := AiTask.picked ((s.dequeueTask i).now clk)
  have hclock : Quiet clk s (s.dequeueTask i).tickClock :=
    (Quiet.refl.dequeue hi).other rfl rfl rfl rfl
  have hrun : Leveled ((s.dequeueTask i).tickClock.setTask i run) :=
    (h.quiet hclock).write i (fun _ => ⟨rfl, rfl⟩) fun _ => rfl
  have hcurrent : Quiet clk ((s.dequeueTask i).tickClock.setTask i run)
      (Sched.runTask clk s i) := by
    refine Quiet.refl.other ?_ ?_ ?_ ?_
    all_goals
      simp only [Sched.runTask]
      split <;> rfl
  exact hrun.quiet hcurrent

theorem aiTaskCreate_poolNext {name : String} {workload : WorkloadType} {params : SchedParams}
    (hroom : s.taskPoolNext < MAX_TASKS) :
    (aiTaskCreate clk name workload (some params) true s).2.taskPoolNext = s.taskPoolNext + 1 :=
  congrArg Life.created (aiTaskCreate_life clk name workload params hroom)

theorem Leveled.create (h : Leveled s) (name : String) (workload : WorkloadType)
    (params : SchedParams) (hroom : s.taskPoolNext < MAX_TASKS) :
    Leveled (aiTaskCreate clk name workload (some params) true s).2 := by
  have hpool := aiTaskCreate_taskPool clk name workload params hroom
  have hnext := @aiTaskCreate_poolNext s clk name workload params hroom
  have hheads : (aiTaskCreate clk name workload (some params) true s).2.runQueues =
      s.runQueues := by
    simp only [aiTaskCreate, allocTask, if_neg hroom.not_ge]
    rfl
  generalize (aiTaskCreate clk name workload (some params) true s).2 = s' at hpool hnext hheads ⊢
  have hold : ∀ j, j ≠ s.taskPoolNext → s'.taskPool j = s.taskPool j := by
    intro j hj
    rw [hpool, if_neg hj]
  have hmember : ∀ l j, s.Member l j → s'.Member l j := by
    intro l j hj
    refine ⟨hnext ▸ Nat.lt_succ_of_lt hj.1, ?_⟩
    rw [SchedState.level, hold j hj.1.ne]
    exact hj.2
  -- the links of the new task are null, all others are the old ones
  have hlink : ∀ g : AiTask → Option Nat, (∀ l k, s.Member l k → ∀ j ∈ g (s.taskPool k),
      s.Member l j) → g (s'.taskPool s.taskPoolNext) = none →
      ∀ l k, s'.Member l k → ∀ j ∈ g (s'.taskPool k), s'.Member l j := by
    intro g hg hnull l k hk j hj
    have hne : k ≠ s.taskPoolNext := by
      rintro rfl
      rw [hnull] at hj
      cases hj
    have hlt := hk.1
    rw [hold k hne] at hj
    refine hmember l j (hg l k ⟨by omega, ?_⟩ j hj)
    rw [SchedState.level, ← hold k hne]
    exact hk.2
  have hnew := (hpool s.taskPoolNext).trans (if_pos rfl)
  exact ⟨fun l j hj => hmember l j (h.heads l j (hheads ▸ hj)),
    hlink AiTask.next h.next (hnew ▸ rfl), hlink AiTask.prev h.prev (hnew ▸ rfl)⟩

/-! ## Picking -/

theorem failTask_readings : (failTask s i).readings = s.readings := dequeueTask_readings

theorem failTask_quiet (hi : i < s.taskPoolNext) : Quiet clk s (failTask s i) :=
  ((Quiet.refl.dequeue hi).write i (quietWrite_state _)).setStats _

theorem Leveled.failTask {l : Level} (h : Leveled s) (head : s.runQueues l = some i) :
    Leveled (failTask s i) :=
  have hquiet : Quiet (fun _ => 0) s (Sched.failTask s i) := failTask_quiet (h.heads l i head).1
  h.quiet hquiet

variable {task : Option Nat}

theorem Picks.acts (h : Picks clk s task s') (hs : Leveled s) :
    Acts clk s .pickNext (.picked task) s' := by
  suffices hsteps : ∀ s₀, Quiet clk s₀ s → s.readings = s₀.readings →
      Acts clk s₀ .pickNext (.picked task) s' from hsteps s .refl rfl
  induction h with
  | nothing =>
    intro s₀ hq _
    exact .quiet nofun (fun i hi => nomatch Reply.picked.inj hi) hq
  | fail head _ _ ih =>
    intro s₀ hq hreadings
    exact ih (hs.failTask head) s₀ (hq.trans (failTask_quiet (hs.heads _ _ head).1))
      (failTask_readings.trans hreadings)
  | run head =>
    intro s₀ hq hreadings
    exact .pick hq hreadings head

/-! ## Runs -/

variable {c : Call} {r : Reply}

theorem Leveled.acts (h : Leveled s) (ha : Acts clk s c r s') : Leveled s' := by
  cases ha with
  | quiet _ _ steps => exact h.quiet steps
  | create room => exact h.create _ _ _ room
  | setPriority _ before after =>
    refine Leveled.quiet ?_ after
    exact (h.quiet before).write _ (fun _ => ⟨rfl, rfl⟩) fun _ => rfl
  | pick before _ head =>
    have hs₁ := h.quiet before
    exact hs₁.runTask (hs₁.heads _ _ head).1
  | tick _ after =>
    refine Leveled.quiet ?_ after
    exact h.write _ (fun _ => ⟨rfl, rfl⟩) fun _ => rfl

/-- Links stay in their level, and the current task is one of the pool. -/
structure Settled (s : SchedState) : Prop where
  leveled : Leveled s
  current : ∀ i ∈ s.currentTask, i < s.taskPoolNext

theorem Moves.current_eq {l : Life} (h : Moves s c l) :
    l.current = s.currentTask ∨ l.current = none := by
  cases h with
  | still | create | queue => exact .inl rfl
  | destroy | suspend =>
    simp only [Life.destroy, Life.suspend, Life.mark, Life.withdraw]
    split
    · exact .inr rfl
    · exact .inl rfl
  | requeue => exact .inr rfl

theorem Picks.current_eq (h : Picks clk s task s') : s'.currentTask = task.or s.currentTask := by
  induction h with
  | nothing => rfl
  | @fail s _ _ i _ _ _ _ ih =>
    have hsame : (failTask s i).currentTask = s.currentTask :=
      congrArg Life.current (@failTask_life s i)
    rw [ih, hsame]
  | @run s _ i _ => exact congrArg Life.current (@runTask_life s clk i)

/-- Only a pick makes a task the current one. -/
theorem exec_current (hs : Settled s) (hcall : exec clk c s fuel = .done (r, s'))
    (hi : s'.currentTask = some i) : s.currentTask = some i ∨ r = .picked (some i) := by
  by_cases hc : c = .pickNext
  · subst hc
    obtain ⟨task, rfl, hpicks⟩ := exec_picks hcall
    rw [hpicks.current_eq] at hi
    cases task with
    | none => exact .inl hi
    | some k => exact .inr (congrArg Reply.picked hi)
  · rcases (exec_effect hs.current hc hcall).moves.current_eq with heq | hnone
    · exact .inl (heq ▸ hi)
    · exact nomatch hnone.symm.trans hi

theorem runTask_poolNext : (runTask clk s i).taskPoolNext = s.taskPoolNext :=
  congrArg Life.created runTask_life

theorem Acts.poolNext_le (h : Acts clk s c r s') : s.taskPoolNext ≤ s'.taskPoolNext := by
  cases h with
  | quiet _ _ after | tick _ after => exact after.poolNext_eq.symm.le
  | create room =>
    rw [aiTaskCreate_poolNext room]
    exact Nat.le_succ _
  | setPriority _ before after => exact (after.poolNext_eq.trans before.poolNext_eq).symm.le
  | pick before => exact (runTask_poolNext.trans before.poolNext_eq).symm.le

theorem Acts.picked_lt (h : Acts clk s c (.picked (some i)) s') (hs : Leveled s) :
    c = .pickNext → i < s.taskPoolNext := by
  intro hc
  cases h with
  | quiet _ none_picked => exact absurd rfl (none_picked i)
  | pick before _ head => exact before.poolNext_eq ▸ ((hs.quiet before).heads _ _ head).1
  | _ => cases hc

/-- Every call acts on a settled state, and leaves one. -/
theorem exec_acts (hs : Settled s) (hcall : exec clk c s fuel = .done (r, s')) :
    Acts clk s c r s' ∧ Settled s' := by
  have hacts : Acts clk s c r s' := by
    by_cases hc : c = .pickNext
    · subst hc
      obtain ⟨task, rfl, hpicks⟩ := exec_picks hcall
      exact hpicks.acts hs.leveled
    · exact (exec_effect hs.current hc hcall).acts
  refine ⟨hacts, hs.leveled.acts hacts, fun i hi => lt_of_lt_of_le ?_ hacts.poolNext_le⟩
  rcases exec_current hs hcall hi with hcur | rfl
  · exact hs.current i hcur
  · refine hacts.picked_lt hs.leveled ?_
    by_contra hc
    exact (exec_effect hs.current hc hcall).none_picked i rfl

theorem Acts.schedReady_eq (h : Acts clk s c r s') : s'.schedReady = s.schedReady := by
  cases h with
  | quiet _ _ steps => exact steps.schedReady_eq
  | create room =>
    simp only [aiTaskCreate, allocTask, if_neg room.not_ge]
    rfl
  | setPriority _ before after => exact after.schedReady_eq.trans before.schedReady_eq
  | @pick _ i s₁ before =>
    have hready := congrArg Prod.snd (unlinked_frame.dequeueTask s₁ i)
    refine Eq.trans ?_ (hready.trans before.schedReady_eq)
    simp only [runTask]
    split <;> rfl
  | tick _ after => exact after.schedReady_eq

/-- In every run, whatever its calls, a queue holds tasks of its level only. -/
theorem Reach.settled {ok : SchedState → List Event → Call → Prop} {h : List Event}
    (hr : Reach clk ok s h) : Settled s := by
  induction hr with
  | @init s hb =>
    have hnone : ∀ {l : Level} {j : Nat}, ¬ (aiSchedInit s).2.Member l j := by
      rintro l j ⟨hlt, -⟩
      rw [show (aiSchedInit s).2.taskPoolNext = 0 from hb.taskPoolNext] at hlt
      exact Nat.not_lt_zero j hlt
    exact ⟨⟨fun l j hj => (nomatch hj), fun l k hk => absurd hk hnone,
      fun l k hk => absurd hk hnone⟩, fun i hi => nomatch hi⟩
  | call _ _ hcall ih => exact (exec_acts ih hcall).2

end

/-! ## Timed runs -/

/-- A task was picked, or was current at a tick, and when. -/
inductive Mark where
  | picked (i t : Nat)
  | ticked (i t : Nat)

def marks (clk : Nat → Nat) (s : SchedState) : Call → Reply → List Mark
  | .pickNext, .picked (some i) => [.picked i (s.now clk)]
  | .tick, _ => s.currentTask.toList.map fun i => .ticked i (s.now clk)
  | _, _ => []

/-- The states of a run whose calls all meet `ok`, with the marks. -/
inductive Timed (clk : Nat → Nat) (ok : SchedState → List Mark → Call → Prop) :
    SchedState → List Mark → Prop where
  | init {s : SchedState} : Boot s → Timed clk ok (aiSchedInit s).2 []
  | call {s s' : SchedState} {log : List Mark} {c : Call} {r : Reply} {fuel : Nat} :
      Timed clk ok s log → ok s log c → exec clk c s fuel = .done (r, s') →
      Timed clk ok s' (marks clk s c r ++ log)

variable {clk : Nat → Nat} {ok : SchedState → List Mark → Call → Prop} {cs : List Call}

theorem Timed.reach {ok' : SchedState → List Event → Call → Prop} {s : SchedState} {log : List Mark}
    (himp : ∀ s log h c, ok s log c → ok' s h c) (hr : Timed clk ok s log) :
    ∃ h, Reach clk ok' s h := by
  induction hr with
  | init hb => exact ⟨[], .init hb⟩
  | call _ hok hcall ih =>
    obtain ⟨h, hr⟩ := ih
    exact ⟨_, .call hr (himp _ _ h _ hok) hcall⟩

/-- The calls one after the other, each with fuel for a full pool. -/
def execAll (clk : Nat → Nat) : List Call → SchedState × List Mark → Outcome (SchedState × List Mark)
  | [], p => .done p
  | c :: cs, (s, log) => do
    let (r, s') ← exec clk c s (MAX_TASKS + 1)
    execAll clk cs (s', marks clk s c r ++ log)

theorem Timed.execAll (hok : ∀ c ∈ cs, ∀ s log, ok s log c) :
    ∀ {p p' : SchedState × List Mark}, Timed clk ok p.1 p.2 → execAll clk cs p = .done p' →
      Timed clk ok p'.1 p'.2 := by
  induction cs with
  | nil =>
    intro p p' hr hcalls
    cases hcalls
    exact hr
  | cons c cs ih =>
    intro p p' hr hcalls
    obtain ⟨⟨r, s₁⟩, hcall, hrest⟩ := bind_eq_done.mp hcalls
    exact ih (fun c hc => hok c (List.mem_cons_of_mem _ hc))
      (.call hr (hok c List.mem_cons_self _ _) hcall) hrest

/-- The state and the marks after calls on the image of the kernel. -/
def timedAfter (clk : Nat → Nat) (cs : List Call) : SchedState × List Mark :=
  match execAll clk cs (start, []) with
  | .done p => p
  | _ => (start, [])

def stateAfter (clk : Nat → Nat) (cs : List Call) : SchedState := (timedAfter clk cs).1

def allReturn (clk : Nat → Nat) (cs : List Call) : Bool := (execAll clk cs (start, [])).returns

theorem timed_timedAfter (hok : ∀ c ∈ cs, ∀ s log, ok s log c) (hcalls : allReturn clk cs = true) :
    Timed clk ok (stateAfter clk cs) (timedAfter clk cs).2 := by
  have hstart : Timed clk ok (start, ([] : List Mark)).1 (start, ([] : List Mark)).2 :=
    .init ⟨rfl, rfl⟩
  obtain ⟨p, hdone⟩ := exists_done hcalls
  refine hstart.execAll hok (hdone.trans ?_)
  rw [timedAfter, hdone]

theorem reach_stateAfter {P : Call → Prop} (hok : ∀ c ∈ cs, P c) (hcalls : allReturn clk cs = true) :
     ∃ h, Reach clk (fun _ _ => P) (stateAfter clk cs) h :=
  (timed_timedAfter (fun c hc _ _ => hok c hc) hcalls).reach fun _ _ _ _ hc => hc

/-- A clock that moves on by `step` at every reading. -/
def steadyClock (step : Nat) : Nat → Nat := fun n => n * step

end AiosKernel.Sched
