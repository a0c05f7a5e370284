/-
# `AiosKernel.Sched.Model` — the AI workload scheduler

The calls of `kernel/sched/ai_sched.c` on an explicit state.  Task control
blocks live in a pool and are named by their index, so that a pointer is an
`Option Nat`; the six run queues are threaded through the `next` and `prev`
fields of the blocks.

The clock is a parameter: the n-th call of `kernel_time_monotonic_ns` returns
`clk n`.  The one loop over a queue, in `enqueue_task`, gets `fuel`; a division
by a zero weight and an index past the end of `run_queues` end the run.
-/
import AiosKernel.Types
import AiosKernel.Lib.DList
import AiosKernel.Lib.Word
import Mathlib.Data.List.FinRange

namespace AiosKernel.Sched

open Word DList

/-! ## Types -/

def MAX_AI_TASKS : Nat := 256
def SCHED_POLICY_COUNT : Nat := 6

def MAX_TASKS : Nat := MAX_AI_TASKS
def NUM_PRIORITY_LEVELS : Nat := SCHED_POLICY_COUNT

def DEFAULT_TIME_SLICE : Nat := 10 * 1000000
def RT_TIME_SLICE : Nat := 1 * 1000000
def TRAINING_TIME_SLICE : Nat := 100 * 1000000

/-- An index of `run_queues`. -/
abbrev Level : Type := Fin NUM_PRIORITY_LEVELS

inductive TaskState where
  | ready
  | running
  | waitingGpu
  | waitingMem
  | waitingIo
  | waitingData
  | suspended
  | completed
  | failed
  deriving DecidableEq, Repr

inductive WorkloadType where
  | inference
  | training
  | fineTuning
  | tokenize
  | embedding
  | attention
  | matmul
  | conv
  | custom
  deriving DecidableEq, Repr

structure AccelAffinity where
  preferredAccel : Nat
  accelMask : Nat
  strictAffinity : Bool
  deriving DecidableEq, Repr

/-- `sched_params_t`.  The policy is the caller's number, in the enumeration or not. -/
structure SchedParams where
  policy : Nat
  priority : Int
  deadlineNs : Nat
  timeSliceNs : Nat
  batchSize : Nat
  affinity : AccelAffinity
  deriving DecidableEq, Repr

structure AiTask where
  id : Nat
  pid : Nat
  name : String
  state : TaskState
  workload : WorkloadType
  sched : SchedParams
  vruntime : Nat
  execTime : Nat
  waitTime : Nat
  startTime : Nat
  lastReadyNs : Nat
  lastScheduled : Nat
  modelId : Nat
  accelId : Nat
  memUsage : Nat
  computeOps : Nat
  currentBatch : Nat
  totalBatches : Nat
  next : Option Nat
  prev : Option Nat
  deriving DecidableEq, Repr

structure SchedStats where
  totalTasks : Nat
  activeTasks : Nat
  completedTasks : Nat
  failedTasks : Nat
  contextSwitches : Nat
  preemptions : Nat
  avgLatencyNs : Nat
  avgWaitNs : Nat
  gpuUtilization : Nat
  deriving DecidableEq, Repr

/-- The static state of the scheduler, and the number of times it has read the clock. -/
structure SchedState where
  taskPool : Nat → AiTask
  taskPoolNext : Nat
  nextTaskId : Nat
  runQueues : Level → Option Nat
  queueSizes : Level → Nat
  currentTask : Option Nat
  schedStats : SchedStats
  tickCount : Nat
  schedReady : Bool
  readings : Nat

namespace SchedState

/-! ## Reading and writing -/

def setTask (s : SchedState) (i : Nat) (f : AiTask → AiTask) : SchedState :=
  { s with taskPool := Function.update s.taskPool i (f (s.taskPool i)) }

def setTask? (s : SchedState) (i : Option Nat) (f : AiTask → AiTask) : SchedState :=
  match i with
  | some i => s.setTask i f
  | none => s

def setHead (s : SchedState) (l : Level) (h : Option Nat) : SchedState :=
  { s with runQueues := Function.update s.runQueues l h }

def setSize (s : SchedState) (l : Level) (n : Nat) : SchedState :=
  { s with queueSizes := Function.update s.queueSizes l n }

def setStats (s : SchedState) (f : SchedStats → SchedStats) : SchedState :=
  { s with schedStats := f s.schedStats }

def next (s : SchedState) (i : Nat) : Option Nat := (s.taskPool i).next

def prev (s : SchedState) (i : Nat) : Option Nat := (s.taskPool i).prev

/-- `kernel_time_monotonic_ns`: what this reading returns. -/
def now (clk : Nat → Nat) (s : SchedState) : Nat := u64 (clk s.readings)

def tickClock (s : SchedState) : SchedState := { s with readings := s.readings + 1 }

/-! ## Internal helpers -/

def allocTask (s : SchedState) : Option (Nat × SchedState) :=
  if MAX_TASKS ≤ s.taskPoolNext then none
  else
    let i := s.taskPoolNext
    let s := { s with taskPoolNext := i + 1 }
    some (i, s.setTask i fun t => { t with next := none, prev := none })

/-- `find_task`: the first block with the id. -/
def findTask (s : SchedState) (id : Nat) : Option Nat :=
  (List.range s.taskPoolNext).find? fun i => (s.taskPool i).id == id

end SchedState

/-- The clamp at the head of `enqueue_task` and `dequeue_task`. -/
def queueLevel (policy : Nat) : Level :=
  if h : policy < NUM_PRIORITY_LEVELS then ⟨policy, h⟩
  else ⟨NUM_PRIORITY_LEVELS - 1, by decide⟩

namespace SchedState

/-- The queue `enqueue_task` and `dequeue_task` use for a task. -/
def level (s : SchedState) (i : Nat) : Level := queueLevel (s.taskPool i).sched.policy

/-- The first branch of `enqueue_task`. -/
def linkFront (s : SchedState) (task : Nat) (l : Level) : SchedState :=
  let head := s.runQueues l
  let s := s.setTask task fun t => { t with next := head, prev := none }
  let s := s.setTask? head fun t => { t with prev := some task }
  s.setHead l (some task)

/-- The end of the other branch: the task goes behind `curr`. -/
def linkAfter (s : SchedState) (task curr : Nat) : SchedState :=
  let s := s.setTask task fun t => { t with next := s.next curr, prev := some curr }
  let s := s.setTask? (s.next curr) fun t => { t with prev := some task }
  s.setTask curr fun t => { t with next := some task }

/-- The insertion of `enqueue_task`, behind the tasks whose `vruntime` is no larger. -/
def link (fuel : Nat) (s : SchedState) (task : Nat) (l : Level) : Outcome SchedState :=
  match s.runQueues l with
  | none => .done (s.linkFront task l)
  | some head =>
    if (s.taskPool task).vruntime < (s.taskPool head).vruntime then .done (s.linkFront task l)
    else
      match advance s.next
          (fun d => decide ((s.taskPool d).vruntime ≤ (s.taskPool task).vruntime)) fuel head with
      | none => .diverge
      | some curr => .done (s.linkAfter task curr)

def enqueueTask (fuel : Nat) (clk : Nat → Nat) (s : SchedState) (task : Nat) :
    Outcome SchedState := do
  let l := s.level task
  let s ← s.link fuel task l
  let s := s.setSize l (u32 (s.queueSizes l + 1))
  let s := s.setTask task fun t => { t with state := .ready, lastReadyNs := s.now clk }
  .done s.tickClock

/-- The first `if` of `dequeue_task`: what led to the task leads past it. -/
def bypass (s : SchedState) (prev next : Option Nat) (l : Level) : SchedState :=
  match prev with
  | some p => s.setTask p fun t => { t with next := next }
  | none => s.setHead l next

def dequeueTask (s : SchedState) (task : Nat) : SchedState :=
  let l := s.level task
  let t := s.taskPool task
  let s := s.bypass t.prev t.next l
  let s := s.setTask? t.next fun u => { u with prev := t.prev }
  let s := s.setTask task fun u => { u with next := none, prev := none }
  s.setSize l (sub32 (s.queueSizes l) 1)

end SchedState

/-- The weight of a policy in `calc_weight`. -/
def baseWeight : Nat → Nat
  | 0 => 1
  | 1 => 4
  | 2 => 16
  | 3 => 32
  | 4 => 64
  | _ => 128

/-- `calc_weight`: the signed priority is added modulo 2^64. -/
def calcWeight (params : SchedParams) : Nat :=
  (((baseWeight params.policy : Int) + params.priority) % 2 ^ 64).toNat

namespace SchedState

/-- `update_vruntime`: a weight of zero divides by zero. -/
def updateVruntime (s : SchedState) (task deltaNs : Nat) : Outcome SchedState :=
  let weight := calcWeight (s.taskPool task).sched
  if weight = 0 then .panic "Division Error"
  else
    .done (s.setTask task fun t =>
      { t with
        vruntime := u64 (t.vruntime + deltaNs / weight)
        execTime := u64 (t.execTime + deltaNs) })

end SchedState

open SchedState

/-! ## The calls -/

def aiSchedInit (s : SchedState) : AiosStatus × SchedState :=
  (.ok, { s with
    runQueues := fun _ => none
    queueSizes := fun _ => 0
    schedStats := ⟨0, 0, 0, 0, 0, 0, 0, 0, 0⟩
    currentTask := none
    tickCount := 0
    schedReady := true })

def aiSchedDefaultParams (policy : Nat) (old : SchedParams) : SchedParams :=
  let params := { old with
    policy := policy, priority := 128, deadlineNs := 0, batchSize := 1
    affinity := ⟨0, 0xFFFFFFFF, false⟩ }
  match policy with
  | 0 => { params with priority := 0, timeSliceNs := RT_TIME_SLICE, deadlineNs := 5 * 1000000 }
  | 1 => { params with priority := 32, timeSliceNs := DEFAULT_TIME_SLICE }
  | 2 => { params with priority := 128, timeSliceNs := TRAINING_TIME_SLICE, batchSize := 32 }
  | 3 => { params with priority := 192, timeSliceNs := DEFAULT_TIME_SLICE }
  | 4 => { params with priority := 255, timeSliceNs := DEFAULT_TIME_SLICE * 2 }
  | _ => { params with timeSliceNs := DEFAULT_TIME_SLICE }

/-- The block `ai_task_create` writes; `alloc_task` has cleared its links. -/
def newTask (id : Nat) (name : String) (workload : WorkloadType) (params : SchedParams)
    (start : Nat) (t : AiTask) : AiTask :=
  { id := id, pid := id, name := name, state := .ready, workload := workload, sched := params
    vruntime := 0, execTime := 0, waitTime := 0, startTime := start, lastReadyNs := start
    lastScheduled := 0, modelId := 0, accelId := 0, memUsage := 0, computeOps := 0
    currentBatch := 0, totalBatches := params.batchSize, next := t.next, prev := t.prev }

/-- `ai_task_create`; `params` and `out` may be null. -/
def aiTaskCreate (clk : Nat → Nat) (name : String) (workload : WorkloadType)
    (params : Option SchedParams) (hasOut : Bool) (s : SchedState) :
    (AiosStatus × Option Nat) × SchedState :=
  match params, hasOut with
  | some params, true =>
    match s.allocTask with
    | none => ((.errNomem, none), s)
    | some (i, s) =>
      let id := s.nextTaskId
      let s := { s with nextTaskId := u32 (id + 1) }
      let s := s.setTask i (newTask id name workload params (s.now clk))
      let s := s.tickClock.setStats fun st =>
        { st with totalTasks := u64 (st.totalTasks + 1)
                  activeTasks := u64 (st.activeTasks + 1) }
      ((.ok, some i), s)
  | _, _ => ((.errInval, none), s)

/-- What `ai_task_destroy` and `ai_task_suspend` begin with. -/
def withdraw (s : SchedState) (i : Nat) : SchedState :=
  match (s.taskPool i).state with
  | .running => { s with currentTask := none }
  | .ready => s.dequeueTask i
  | _ => s

def aiTaskDestroy (id : Nat) (s : SchedState) : AiosStatus × SchedState :=
  match s.findTask id with
  | none => (.errInval, s)
  | some i =>
    let s := (withdraw s i).setTask i fun t => { t with state := .completed }
    (.ok, s.setStats fun st =>
      { st with activeTasks := sub64 st.activeTasks 1
                completedTasks := u64 (st.completedTasks + 1) })

/-- The start of `ai_task_submit`'s tail: the task joins at the `vruntime` of the queue's head. -/
def adoptVruntime (s : SchedState) (i : Nat) (l : Level) : SchedState :=
  match s.runQueues l with
  | some head => s.setTask i fun t => { t with vruntime := (s.taskPool head).vruntime }
  | none => s

/-- `ai_task_submit`.  Here the policy is not clamped before it indexes `run_queues`. -/
def aiTaskSubmit (fuel : Nat) (clk : Nat → Nat) (id : Nat) (s : SchedState) :
    Outcome (AiosStatus × SchedState) :=
  match s.findTask id with
  | none => .done (.errInval, s)
  | some i =>
    let t := s.taskPool i
    if t.state ≠ .ready ∧ t.state ≠ .suspended then .done (.errInval, s)
    else if h : t.sched.policy < NUM_PRIORITY_LEVELS then do
      let s ← (adoptVruntime s i ⟨t.sched.policy, h⟩).enqueueTask fuel clk i
      .done (.ok, s)
    else .panic "run_queues: index out of range"

def aiTaskSuspend (id : Nat) (s : SchedState) : AiosStatus × SchedState :=
  match s.findTask id with
  | none => (.errInval, s)
  | some i => (.ok, (withdraw s i).setTask i fun t => { t with state := .suspended })

def aiTaskResume (fuel : Nat) (clk : Nat → Nat) (id : Nat) (s : SchedState) :
    Outcome (AiosStatus × SchedState) :=
  match s.findTask id with
  | none => .done (.errInval, s)
  | some i =>
    if (s.taskPool i).state ≠ .suspended then .done (.errInval, s)
    else do
      let s ← s.enqueueTask fuel clk i
      .done (.ok, s)

def aiTaskSetPriority (fuel : Nat) (clk : Nat → Nat) (id : Nat) (priority : Int) (s : SchedState) :
    Outcome (AiosStatus × SchedState) :=
  match s.findTask id with
  | none => .done (.errInval, s)
  | some i =>
    let write := fun t : AiTask => { t with sched := { t.sched with priority := priority } }
    if (s.taskPool i).state = .ready then do
      let s ← ((s.dequeueTask i).setTask i write).enqueueTask fuel clk i
      .done (.ok, s)
    else .done (.ok, s.setTask i write)

/-- `ai_task_get_priority` with a non-null `out_priority`. -/
def aiTaskGetPriority (id : Nat) (s : SchedState) : AiosStatus × Option Int :=
  match s.findTask id with
  | none => (.errInval, none)
  | some i => (.ok, some (s.taskPool i).sched.priority)

/-- A real-time task that has run longer than its deadline. -/
def deadlineMissed (l : Level) (t : AiTask) : Bool :=
  l.val = 0 && 0 < t.sched.deadlineNs && t.sched.deadlineNs < t.execTime

/-- `ai_sched_pick_next` fails a task that missed its deadline. -/
def failTask (s : SchedState) (i : Nat) : SchedState :=
  ((s.dequeueTask i).setTask i fun t => { t with state := .failed }).setStats fun st =>
    { st with failedTasks := u64 (st.failedTasks + 1), activeTasks := sub64 st.activeTasks 1 }

/-- `ai_sched_pick_next` makes the task it picked the current one. -/
def runTask (clk : Nat → Nat) (s : SchedState) (i : Nat) : SchedState :=
  let s := s.dequeueTask i
  let now := s.now clk
  let s := s.tickClock.setTask i fun t =>
    { t with state := .running, lastScheduled := now
             waitTime := u64 (t.waitTime + sub64 now t.lastReadyNs) }
  let s :=
    if s.currentTask = some i then s
    else s.setStats fun st => { st with contextSwitches := u64 (st.contextSwitches + 1) }
  { s with currentTask := some i }

/-- The loop of `ai_sched_pick_next` over the levels still to look at.  A failed task moves it
on to the next level. -/
def pickFrom (clk : Nat → Nat) : List Level → SchedState → Option Nat × SchedState
  | [], s => (none, s)
  | l :: ls, s =>
    match s.runQueues l with
    | none => pickFrom clk ls s
    | some i =>
      if deadlineMissed l (s.taskPool i) then pickFrom clk ls (failTask s i)
      else (some i, runTask clk s i)

def aiSchedPickNext (clk : Nat → Nat) (s : SchedState) : Option Nat × SchedState :=
  pickFrom clk (List.finRange NUM_PRIORITY_LEVELS) s

/-- The search of `ai_sched_tick` for a waiting task below `level`. -/
def higherWaiting (s : SchedState) (level : Nat) : Outcome Bool :=
  if (List.finRange NUM_PRIORITY_LEVELS).any fun l => l.val < level && (s.runQueues l).isSome then
    .done true
  else if level ≤ NUM_PRIORITY_LEVELS then .done false
  else .panic "run_queues: index out of range"

/-- The current task goes back to its queue. -/
def requeue (fuel : Nat) (clk : Nat → Nat) (s : SchedState) (i : Nat) : Outcome SchedState :=
  { s with currentTask := none }.enqueueTask fuel clk i

def countPreemption (s : SchedState) : SchedState :=
  s.setStats fun st => { st with preemptions := u64 (st.preemptions + 1) }

/-- The two checks of `ai_sched_tick` once the current task is charged. -/
def checkCurrent (fuel : Nat) (clk : Nat → Nat) (s : SchedState) (i elapsedNs : Nat) :
    Outcome SchedState :=
  if (s.taskPool i).sched.timeSliceNs ≤ elapsedNs then requeue fuel clk s i
  else do
    match ← higherWaiting s (s.taskPool i).sched.policy with
    | true => do
      let s ← requeue fuel clk s i
      .done (countPreemption s)
    | false => .done s

def aiSchedTick (fuel : Nat) (clk : Nat → Nat) (s : SchedState) : Outcome SchedState :=
  let s := { s with tickCount := u64 (s.tickCount + 1) }
  match s.currentTask with
  | none => .done s
  | some i => do
    let elapsedNs := sub64 (s.now clk) (s.taskPool i).lastScheduled
    let s ← s.tickClock.updateVruntime i elapsedNs
    checkCurrent fuel clk s i elapsedNs

def aiSchedYield (fuel : Nat) (clk : Nat → Nat) (s : SchedState) : Outcome SchedState :=
  match s.currentTask with
  | none => .done s
  | some i => requeue fuel clk s i

def aiSchedPreempt (fuel : Nat) (clk : Nat → Nat) (id : Nat) (s : SchedState) :
    Outcome SchedState :=
  match s.findTask id with
  | none => .done s
  | some i =>
    if (s.taskPool i).state ≠ .running then .done s
    else do
      let s ← requeue fuel clk s i
      .done (countPreemption s)

end AiosKernel.Sched
