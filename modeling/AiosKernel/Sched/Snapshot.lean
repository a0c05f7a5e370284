/-
# `AiosKernel.Sched.Snapshot` — the queue snapshot of the scheduler

`ai_sched_queue_snapshot` adds up the sizes of the queues and counts the current
task.  In a run that keeps the queues exact nothing is counted twice, so the sum
is bounded by the tasks of the pool, and does not wrap.
-/
import AiosKernel.Sched.Levels

namespace AiosKernel.Sched

open Word DList SchedState List

/-- `ai_sched_queue_snapshot_t`; a policy that is not there is `SCHED_POLICY_COUNT`. -/
structure QueueSnapshot where
  queueCount : Nat
  queuedTasks : Nat
  runnableTasks : Nat
  largestQueue : Nat
  largestQueuePolicy : Nat
  running : Bool
  runningPolicy : Nat
  queueSizes : Level → Nat

def queuedTasks (s : SchedState) : Nat :=
  (List.finRange NUM_PRIORITY_LEVELS).foldl (fun n l => u32 (n + s.queueSizes l)) 0

/-- The largest queue of the loop and its policy; the first of two equal ones stays. -/
def largestQueue (s : SchedState) : Nat × Nat :=
  (List.finRange NUM_PRIORITY_LEVELS).foldl
    (fun best l => if best.1 < s.queueSizes l then (s.queueSizes l, l.val) else best)
    (0, SCHED_POLICY_COUNT)

def aiSchedQueueSnapshot (s : SchedState) : AiosStatus × Option QueueSnapshot :=
  if !s.schedReady then (.errInval, none)
  else
    (.ok, some
      { queueCount := SCHED_POLICY_COUNT
        queuedTasks := queuedTasks s
        runnableTasks := u32 (queuedTasks s + if s.currentTask.isSome then 1 else 0)
        largestQueue := (largestQueue s).1
        largestQueuePolicy := (largestQueue s).2
        running := s.currentTask.isSome
        runningPolicy := match s.currentTask with
          | some i => (s.taskPool i).sched.policy
          | none => SCHED_POLICY_COUNT
        queueSizes := s.queueSizes })

/-! ## No task is counted twice -/

section

/-- The tasks that can run: those on the queues, and the current one. -/
def runnable (s : SchedState) (Q : Level → List Nat) : List Nat :=
  (List.finRange NUM_PRIORITY_LEVELS).flatMap Q ++ s.currentTask.toList

variable {s : SchedState} {clk : Nat → Nat} {sub : List Nat} {Q : Level → List Nat}

theorem SchedInv.runnable_nodup (h : SchedInv s sub Q none) : (runnable s Q).Nodup := by
  refine List.Nodup.append ?_ ?_ ?_
  · refine nodup_flatMap.mpr ⟨fun l _ => (h.queues.lists.links l).nodup, ?_⟩
    refine (nodup_finRange _).imp fun hne => ?_
    exact fun i hi hi' => hne (h.queues.lists.apart _ _ i hi hi')
  · cases s.currentTask with
    | none => exact nodup_nil
    | some i => exact nodup_singleton i
  · intro i hi hcur
    obtain ⟨l, -, hl⟩ := mem_flatMap.mp hi
    obtain ⟨-, -, hrun⟩ := h.current i (Option.mem_toList.mp hcur)
    exact h.queues.notMem_of_state (by simp [hrun]) l hl

theorem SchedInv.runnable_length (h : SchedInv s sub Q none) :
    (runnable s Q).length ≤ MAX_TASKS := by
  have hsub : runnable s Q ⊆ List.range s.taskPoolNext := by
    intro i hi
    rw [mem_range]
    rcases mem_append.mp hi with hq | hcur
    · obtain ⟨l, -, hl⟩ := mem_flatMap.mp hq
      exact h.queues.bound l i hl
    · exact (h.current i (Option.mem_toList.mp hcur)).2.1
  have hle := (h.runnable_nodup.subperm hsub).length_le
  rw [length_range] at hle
  exact hle.trans h.queues.cap

theorem SchedInv.queueSnapshot (h : SchedInv s sub Q none) (hready : s.schedReady = true) :
    ∃ q, aiSchedQueueSnapshot s = (.ok, some q) ∧ q.runnableTasks = (runnable s Q).length := by
  have hlen := h.runnable_length
  have hsizes : s.queueSizes = fun l => (Q l).length := funext h.queues.sizes
  have hsum : ((List.finRange NUM_PRIORITY_LEVELS).map fun l => (Q l).length).sum +
      s.currentTask.toList.length = (runnable s Q).length := by
    rw [runnable, length_append, length_flatMap]
  simp only [MAX_TASKS, MAX_AI_TASKS] at hlen
  have hqueued : queuedTasks s =
      ((List.finRange NUM_PRIORITY_LEVELS).map fun l => (Q l).length).sum := by
    rw [queuedTasks, hsizes, foldl_u32_add _ _ 0 (by omega), Nat.zero_add]
  have hcur : (if s.currentTask.isSome then 1 else 0) = s.currentTask.toList.length := by
    cases s.currentTask <;> rfl
  refine ⟨_, by rw [aiSchedQueueSnapshot, hready]; rfl, ?_⟩
  rw [hqueued, hcur, hsum, u32_eq (by omega)]

/-- After `ai_sched_init` the scheduler stays ready. -/
theorem Reach.schedReady {ok : SchedState → List Event → Call → Prop} {h : List Event}
    (hr : Reach clk ok s h) : s.schedReady = true := by
  induction hr with
  | init _ => rfl
  | call hr _ hcall ih => exact (exec_acts hr.settled hcall).1.schedReady_eq.trans ih

end

end AiosKernel.Sched
