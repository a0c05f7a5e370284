/-
# `AiosKernel.Sched.Runs` — runs of the scheduler

A run is a sequence of calls; its history records what they replied.  In every
run that only submits tasks that are not queued, and only touches ready tasks
that have been submitted, the queues stay exact, sorted and consistently linked,
and every call returns.

The code itself does not check these conditions.  `ai_task_create` leaves a task
in the state READY without queueing it, while `ai_task_suspend`,
`ai_task_destroy` and `ai_task_set_priority` take READY for queued: unlinking
such a task empties the queue.  And `ai_task_submit` links a queued task to
itself.
-/
import AiosKernel.Sched.Calls

namespace AiosKernel.Sched

open Word DList SchedState Outcome

/-! ## Calls and histories -/

inductive Call where
  | create (name : String) (workload : WorkloadType) (params : Option SchedParams) (hasOut : Bool)
  | destroy (id : Nat)
  | submit (id : Nat)
  | suspend (id : Nat)
  | resume (id : Nat)
  | setPriority (id : Nat) (priority : Int)
  | pickNext
  | tick
  | yield
  | preempt (id : Nat)

/-- What a call replies; `ai_task_create` shows the id of the task it made. -/
inductive Reply where
  | created (st : AiosStatus) (id : Option Nat)
  | status (st : AiosStatus)
  | picked (task : Option Nat)
  | void
  deriving DecidableEq

def Call.target : Call → Option Nat
  | .destroy id | .submit id | .suspend id | .resume id | .setPriority id _ | .preempt id => some id
  | .create _ _ _ _ | .pickNext | .tick | .yield => none

def exec (clk : Nat → Nat) (c : Call) (s : SchedState) (fuel : Nat) :
    Outcome (Reply × SchedState) :=
  match c with
  | .create name workload params hasOut =>
    let ((st, out), s) := aiTaskCreate clk name workload params hasOut s
    .done (.created st (out.map fun i => (s.taskPool i).id), s)
  | .destroy id =>
    let (st, s) := aiTaskDestroy id s
    .done (.status st, s)
  | .submit id => do
    let (st, s) ← aiTaskSubmit fuel clk id s
    .done (.status st, s)
  | .suspend id =>
    let (st, s) := aiTaskSuspend id s
    .done (.status st, s)
  | .resume id => do
    let (st, s) ← aiTaskResume fuel clk id s
    .done (.status st, s)
  | .setPriority id priority => do
    let (st, s) ← aiTaskSetPriority fuel clk id priority s
    .done (.status st, s)
  | .pickNext =>
    let (task, s) := aiSchedPickNext clk s
    .done (.picked task, s)
  | .tick => do
    let s ← aiSchedTick fuel clk s
    .done (.void, s)
  | .yield => do
    let s ← aiSchedYield fuel clk s
    .done (.void, s)
  | .preempt id => do
    let s ← aiSchedPreempt fuel clk id s
    .done (.void, s)

abbrev Event : Type := Call × Reply

def Event.submits : Event → Option Nat
  | (.submit id, .status .ok) => some id
  | _ => none

/-- The ids submitted so far, the history being newest first. -/
def submitted (h : List Event) : List Nat := h.filterMap Event.submits

/-- The task was created and no call has named it since. -/
def Fresh (id : Nat) : List Event → Prop
  | [] => False
  | (c, r) :: h => r = .created .ok (some id) ∨ c.target ≠ some id ∧ Fresh id h

/-- The static initialisers: no task exists and the first id is 1. -/
structure Boot (s : SchedState) : Prop where
  taskPoolNext : s.taskPoolNext = 0
  nextTaskId : s.nextTaskId = 1

/-- The states of a run whose calls all meet `ok`, with the history. -/
inductive Reach (clk : Nat → Nat) (ok : SchedState → List Event → Call → Prop) :
    SchedState → List Event → Prop where
  | init {s : SchedState} : Boot s → Reach clk ok (aiSchedInit s).2 []
  | call {s s' : SchedState} {h : List Event} {c : Call} {r : Reply} {fuel : Nat} :
      Reach clk ok s h → ok s h c → exec clk c s fuel = .done (r, s') →
      Reach clk ok s' ((c, r) :: h)

/-! ## Conditions on calls -/

/-- Policies name a queue. -/
def PolicyInRange : Call → Prop
  | .create _ _ params _ => ∀ p, params = some p → p.policy < SCHED_POLICY_COUNT
  | _ => True

/-- A task is submitted only if it is not queued already. -/
def SubmitsIdle (s : SchedState) (h : List Event) : Call → Prop
  | .submit id => ∀ i, s.findTask id = some i → (s.taskPool i).state = .ready → id ∉ submitted h
  | _ => True

/-- A call that takes READY for queued names no task that was created but never submitted. -/
def TouchesSubmitted (s : SchedState) (h : List Event) : Call → Prop
  | .destroy id | .suspend id | .setPriority id _ =>
    ∀ i, s.findTask id = some i → (s.taskPool i).state = .ready → id ∈ submitted h
  | _ => True

/-- The three conditions together. -/
structure Careful (s : SchedState) (h : List Event) (c : Call) : Prop where
  policy : PolicyInRange c
  idle : SubmitsIdle s h c
  touches : TouchesSubmitted s h c

/-- The division of `update_vruntime` is defined. -/
def WeightPositive (s : SchedState) : Call → Prop
  | .tick => ∀ i, s.currentTask = some i → calcWeight (s.taskPool i).sched ≠ 0
  | _ => True

/-! ## One call -/

section

variable {clk : Nat → Nat} {s s' : SchedState} {h : List Event} {c : Call} {r : Reply} {fuel : Nat}
  {Q : Level → List Nat}

theorem submitted_of_not_submit (hc : ∀ id, c ≠ .submit id) :
    submitted ((c, r) :: h) = submitted h := by
  have hnone : Event.submits (c, r) = none := by
    cases c with
    | submit id => exact absurd rfl (hc id)
    | _ => rfl
  simp [submitted, hnone]

variable {id : Nat}

theorem target_of_submits (he : Event.submits (c, r) = some id) : c.target = some id := by
  cases c with
  | submit x =>
    cases r with
    | status st =>
      cases st with
      | ok => exact he
      | _ => nomatch he
    | _ => nomatch he
  | _ => nomatch he

/-- A careful call returns and keeps the invariant. -/
theorem exec_spec (hinv : SchedInv s (submitted h) Q none) (hok : Careful s h c)
    (hweight : WeightPositive s c) :
    ∃ r s' Q', EndsBy MAX_TASKS (exec clk c s) (r, s') ∧
      SchedInv s' (submitted ((c, r) :: h)) Q' none := by
  have hsub : ∀ {r : Reply} {s' : SchedState} {Q' : Level → List Nat}, (∀ id, c ≠ .submit id) →
      SchedInv s' (submitted h) Q' none → SchedInv s' (submitted ((c, r) :: h)) Q' none := by
    intro r s' Q' hc hinv'
    rwa [submitted_of_not_submit hc]
  cases c with
  | create name workload params hasOut =>
    exact ⟨_, _, Q, .done _ _,
      hsub (by simp) (hinv.create clk name workload params hasOut hok.policy)⟩
  | destroy id =>
    obtain ⟨Q', hinv'⟩ := hinv.aiTaskDestroy id hok.touches
    exact ⟨_, _, Q', .done _ _, hsub (by simp) hinv'⟩
  | submit id =>
    obtain ⟨st, s', Q', hends, hinv'⟩ := hinv.aiTaskSubmit clk id hok.idle
    refine ⟨.status st, s', Q', hends.bind (.done _ _), ?_⟩
    cases st <;> exact hinv'
  | suspend id =>
    obtain ⟨Q', hinv'⟩ := hinv.aiTaskSuspend id hok.touches
    exact ⟨_, _, Q', .done _ _, hsub (by simp) hinv'⟩
  | resume id =>
    obtain ⟨st, s', Q', hends, hinv'⟩ := hinv.aiTaskResume clk id
    exact ⟨.status st, s', Q', hends.bind (.done _ _), hsub (by simp) hinv'⟩
  | setPriority id priority =>
    obtain ⟨st, s', Q', hends, hinv'⟩ := hinv.aiTaskSetPriority clk id priority hok.touches
    exact ⟨.status st, s', Q', hends.bind (.done _ _), hsub (by simp) hinv'⟩
  | pickNext =>
    obtain ⟨Q', hinv'⟩ := SchedInv.pickFrom clk (List.finRange NUM_PRIORITY_LEVELS) hinv
    exact ⟨_, _, Q', .done _ _, hsub (by simp) hinv'⟩
  | tick =>
    obtain ⟨s', Q', hends, hinv'⟩ := hinv.aiSchedTick clk hweight
    exact ⟨.void, s', Q', hends.bind (.done _ _), hsub (by simp) hinv'⟩
  | yield =>
    obtain ⟨s', Q', hends, hinv'⟩ := hinv.aiSchedYield clk
    exact ⟨.void, s', Q', hends.bind (.done _ _), hsub (by simp) hinv'⟩
  | preempt id =>
    obtain ⟨s', Q', hends, hinv'⟩ := hinv.aiSchedPreempt clk id
    exact ⟨.void, s', Q', hends.bind (.done _ _), hsub (by simp) hinv'⟩

theorem weightPositive_of_exec (hcall : exec clk c s fuel = .done (r, s')) : WeightPositive s c := by
  cases c with
  | tick =>
    intro i hcur hzero
    obtain ⟨s₁, htick, -⟩ := bind_eq_done.mp hcall
    rw [aiSchedTick_of_weight_zero fuel clk hcur hzero] at htick
    simp at htick
  | _ => trivial

theorem exec_created (hcall : exec clk c s fuel = .done (.created .ok (some id), s')) :
    id = s.nextTaskId ∧ ∀ x, c ≠ .submit x := by
  cases c with
  | create name workload params hasOut =>
    refine ⟨?_, by simp⟩
    match params, hasOut with
    | none, _ => simp [exec, aiTaskCreate] at hcall
    | some params, false => simp [exec, aiTaskCreate] at hcall
    | some params, true =>
      by_cases hcap : MAX_TASKS ≤ s.taskPoolNext
      · simp [exec, aiTaskCreate, allocTask, hcap] at hcall
      · simp only [exec, aiTaskCreate, allocTask, if_neg hcap, done.injEq, Prod.mk.injEq,
          Reply.created.injEq, Option.map_some, Option.some.injEq, true_and] at hcall
        rw [← hcall.1]
        refine (congrArg AiTask.id (setTask_taskPool _ _ s.taskPoolNext _)).trans ?_
        rw [if_pos rfl]
        rfl
  | destroy x | suspend x | pickNext => simp [exec] at hcall
  | submit x | resume x | setPriority x priority | tick | yield | preempt x =>
    obtain ⟨p, -, hp⟩ := bind_eq_done.mp hcall
    simp at hp

/-! ## Whole runs -/

theorem boot_inv (hb : Boot s) : SchedInv (aiSchedInit s).2 (submitted []) (fun _ => []) none := by
  have hnext : (aiSchedInit s).2.taskPoolNext = 0 := hb.taskPoolNext
  have hnone : ∀ j, ¬ j < (aiSchedInit s).2.taskPoolNext := by
    intro j hj
    rw [hnext] at hj
    exact Nat.not_lt_zero j hj
  constructor
  · exact ⟨⟨fun l => ⟨rfl, trivial⟩, by simp⟩, fun l => rfl, by simp, by simp, by simp, by simp,
      by rw [hnext]; decide⟩
  · exact fun j hj => absurd hj (hnone j)
  · simp
  · exact fun j hj => absurd hj (hnone j)
  · intro j hj
    simp [aiSchedInit] at hj
  · simp
  · exact fun j hj => absurd hj (hnone j)
  · show s.nextTaskId = s.taskPoolNext + 1
    rw [hb.nextTaskId, hb.taskPoolNext]
  · exact fun j hj => absurd hj (hnone j)
  · simp [submitted]

/-- In a run whose calls are careful the invariant holds, and a fresh task has not been
submitted.  That calls are careful may be concluded from the latter. -/
theorem Reach.inv {ok : SchedState → List Event → Call → Prop}
    (hok : ∀ s h c, (∀ id, Fresh id h → id ∉ submitted h) → ok s h c → Careful s h c)
    (hr : Reach clk ok s h) :
    (∃ Q, SchedInv s (submitted h) Q none) ∧ ∀ id, Fresh id h → id ∉ submitted h := by
  induction hr with
  | init hb => exact ⟨⟨_, boot_inv hb⟩, fun id hf => hf.elim⟩
  | @call s s' h c r fuel _ hc hcall ih =>
    obtain ⟨⟨Q, hinv⟩, hfresh⟩ := ih
    obtain ⟨r', s'', Q', hends, hinv'⟩ :=
      exec_spec hinv (hok s h c hfresh hc) (weightPositive_of_exec hcall)
    obtain ⟨rfl, rfl⟩ : r = r' ∧ s' = s'' := by simpa using hends.eq hcall
    refine ⟨⟨Q', hinv'⟩, ?_⟩
    rintro id (rfl | ⟨htarget, hf⟩)
    · -- a new id is larger than all submitted ones
      obtain ⟨rfl, hc⟩ := exec_created hcall
      rw [submitted_of_not_submit hc]
      exact fun hm => lt_irrefl _ (hinv.subLt _ hm)
    · have hold := hfresh id hf
      cases hsub : Event.submits (c, r) with
      | none => simpa [submitted, hsub] using hold
      | some x =>
        have hx : c.target = some x := target_of_submits hsub
        simp only [submitted, List.filterMap_cons, hsub, List.mem_cons, not_or]
        exact ⟨fun he => htarget (he ▸ hx), hold⟩

/-! ## What careful runs guarantee -/

/-- The nodes reached from `head` through `next` are `xs`, and then null. -/
def Follows (s : SchedState) : Option Nat → List Nat → Prop
  | head, [] => head = none
  | head, x :: xs => head = some x ∧ Follows s (s.next x) xs

theorem follows_of_seg : ∀ {p : Option Nat} {xs : List Nat}, Seg s.next s.prev p xs none →
    Follows s xs.head? xs
  | _, [], _ => rfl
  | _, x :: xs, hseg => by
    have hnext : s.next x = xs.head? := by simpa using hseg.2.1
    exact ⟨rfl, hnext ▸ follows_of_seg hseg.2.2⟩

/-- The queues hold each submitted task that is ready once, in the queue of its policy, and no
task that is not ready. -/
structure QueuesExact (s : SchedState) (sub : List Nat) (Q : Level → List Nat) : Prop where
  follows : ∀ l, Follows s (s.runQueues l) (Q l)
  sizes : ∀ l, s.queueSizes l = (Q l).length
  once : ∀ i < s.taskPoolNext, (s.taskPool i).id ∈ sub → (s.taskPool i).state = .ready →
    ∃ hp : (s.taskPool i).sched.policy < NUM_PRIORITY_LEVELS,
      (Q ⟨_, hp⟩).count i = 1 ∧ ∀ l : Level, l.val ≠ (s.taskPool i).sched.policy → i ∉ Q l
  ready : ∀ l, ∀ i ∈ Q l, (s.taskPool i).state = .ready

theorem level_val {i : Nat} (hp : (s.taskPool i).sched.policy < NUM_PRIORITY_LEVELS) :
    s.level i = ⟨_, hp⟩ := dif_pos hp

/-- In a careful run the queues are exact. -/
theorem queues_exact (hr : Reach clk Careful s h) : ∃ Q, QueuesExact s (submitted h) Q := by
  obtain ⟨⟨Q, hinv⟩, -⟩ := hr.inv fun _ _ _ _ hc => hc
  refine ⟨Q, ?_, hinv.queues.sizes, ?_, hinv.queues.ready⟩
  · intro l
    have hlist := hinv.queues.lists.links l
    rw [hlist.head_eq]
    exact follows_of_seg hlist.2
  · intro i hlt hsub hready
    have hp := hinv.policies i hlt
    have hmem := hinv.complete i hlt (by simp) hready hsub
    rw [level_val hp] at hmem
    refine ⟨hp, List.count_eq_one_of_mem (hinv.queues.lists.links _).nodup hmem, ?_⟩
    intro l hl hi
    exact hl (congrArg Fin.val (hinv.queues.lists.apart l _ i hi hmem))

/-- In a careful run every careful call returns, if the weight it divides by is not zero. -/
theorem calls_return (hr : Reach clk Careful s h) (hok : Careful s h c)
    (hweight : WeightPositive s c) (hfuel : MAX_TASKS < fuel) :
    ∃ r s', exec clk c s fuel = .done (r, s') := by
  obtain ⟨⟨Q, hinv⟩, -⟩ := hr.inv fun _ _ _ _ hc => hc
  obtain ⟨r, s', -, hends, -⟩ := exec_spec hinv hok hweight
  exact ⟨r, s', hends.of_lt hfuel⟩

/-- What the system calls keep to: policies and priorities in range, and a task is submitted
right after it was created, or when it is suspended. -/
def SyscallDiscipline (s : SchedState) (h : List Event) : Call → Prop
  | .create _ _ params _ => ∀ p, params = some p → p.policy < SCHED_POLICY_COUNT ∧ 0 ≤ p.priority
  | .setPriority _ priority => 0 ≤ priority
  | .submit id => Fresh id h ∨ ∃ i, s.findTask id = some i ∧ (s.taskPool i).state = .suspended
  | _ => True

/-- The queues are doubly linked lists, sorted by `vruntime`, of exactly the submitted tasks
that are ready; the current task is running and on none of them. -/
structure QueuesSorted (s : SchedState) (sub : List Nat) (Q : Level → List Nat) : Prop where
  links : ∀ l, IsList s.next s.prev (s.runQueues l) (Q l)
  nodup : ∀ l, (Q l).Nodup
  sorted : ∀ l, (Q l).Pairwise (RanLess s)
  exact : ∀ (l : Level) i, i ∈ Q l ↔ i < s.taskPoolNext ∧ (s.taskPool i).id ∈ sub ∧
    (s.taskPool i).state = .ready ∧ (s.taskPool i).sched.policy = l.val
  current : ∀ i, s.currentTask = some i → (s.taskPool i).state = .running ∧ ∀ l, i ∉ Q l

theorem submitsIdle_of (hfresh : ∀ id, Fresh id h → id ∉ submitted h)
    (hd : Fresh id h ∨ ∃ i, s.findTask id = some i ∧ (s.taskPool i).state = .suspended) :
    SubmitsIdle s h (.submit id) := by
  intro i hfind hready
  rcases hd with hf | ⟨j, hfind', hsusp⟩
  · exact hfresh id hf
  · rw [hfind'] at hfind
    rw [Option.some.inj hfind, hready] at hsusp
    cases hsusp

theorem careful_of_discipline (hfresh : ∀ id, Fresh id h → id ∉ submitted h)
    (hok : SyscallDiscipline s h c ∧ TouchesSubmitted s h c) : Careful s h c := by
  obtain ⟨hd, ht⟩ := hok
  refine ⟨?_, ?_, ht⟩
  · cases c with
    | create name workload params hasOut => exact fun p hp => (hd p hp).1
    | _ => trivial
  · cases c with
    | submit id => exact submitsIdle_of hfresh hd
    | _ => trivial

/-- In a run that keeps to the discipline and touches no unsubmitted task, the queues are sorted
lists of exactly the right tasks. -/
theorem queues_sorted
    (hr : Reach clk (fun s h c => SyscallDiscipline s h c ∧ TouchesSubmitted s h c) s h) :
    ∃ Q, QueuesSorted s (submitted h) Q := by
  obtain ⟨⟨Q, hinv⟩, -⟩ := hr.inv fun _ _ _ hf hc => careful_of_discipline hf hc
  refine ⟨Q, hinv.queues.lists.links, fun l => (hinv.queues.lists.links l).nodup,
    hinv.queues.sorted, ?_, ?_⟩
  · intro l i
    constructor
    · intro hi
      have hlt := hinv.queues.bound l i hi
      refine ⟨hlt, hinv.queued l i hi, hinv.queues.ready l i hi, ?_⟩
      rw [← hinv.queues.level l i hi, level_val (hinv.policies i hlt)]
    · rintro ⟨hlt, hsub, hready, hp⟩
      have hmem := hinv.complete i hlt (by simp) hready hsub
      rw [level_val (hinv.policies i hlt)] at hmem
      exact (Fin.ext hp : (⟨_, hinv.policies i hlt⟩ : Level) = l) ▸ hmem
  · intro i hi
    obtain ⟨-, -, hrun⟩ := hinv.current i hi
    exact ⟨hrun, hinv.queues.notMem_of_state (by simp [hrun])⟩

end

/-! ## Runs on a fixed clock -/

def stillClock : Nat → Nat := fun _ => 0

/-- The zeroed image with its static initialisers. -/
def bootState : SchedState where
  taskPool _ := newTask 0 "" .inference ⟨0, 0, 0, 0, 0, ⟨0, 0, false⟩⟩ 0
    ⟨0, 0, "", .ready, .inference, ⟨0, 0, 0, 0, 0, ⟨0, 0, false⟩⟩, 0, 0, 0, 0, 0, 0, 0, 0, 0, 0, 0, 0,
      none, none⟩
  taskPoolNext := 0
  nextTaskId := 1
  runQueues _ := none
  queueSizes _ := 0
  currentTask := none
  schedStats := ⟨0, 0, 0, 0, 0, 0, 0, 0, 0⟩
  tickCount := 0
  schedReady := false
  readings := 0

/-- The state after `ai_sched_init`. -/
def start : SchedState := (aiSchedInit bootState).2

/-- `ai_task_create` with the defaults for inference. -/
def createInference : Call :=
  .create "inference" .inference (some (aiSchedDefaultParams 1 ⟨0, 0, 0, 0, 0, ⟨0, 0, false⟩⟩)) true

def after (c : Call) (s : SchedState) : SchedState :=
  match exec stillClock c s (MAX_TASKS + 1) with
  | .done (_, s) => s
  | _ => s

variable {ok : SchedState → List Event → Call → Prop} {s : SchedState}

theorem Reach.after {h : List Event} (hr : Reach stillClock ok s h) (c : Call) (r : Reply)
    (hok : ok s h c) (hcall : exec stillClock c s (MAX_TASKS + 1) = .done (r, after c s)) :
    Reach stillClock ok (after c s) ((c, r) :: h) := .call hr hok hcall

theorem reach_start : Reach stillClock ok start [] := .init ⟨rfl, rfl⟩

/-- The task a call names exists. -/
def Known (s : SchedState) (c : Call) : Prop :=
  ∀ id, c.target = some id → ∃ i, s.findTask id = some i

/-- One task is queued, and a second one created. -/
def oneQueued : SchedState := after createInference (after (.submit 1) (after createInference start))

theorem reach_oneQueued (hcreate : ∀ s h, ok s h createInference)
    (hsubmit : ok (after createInference start) [(createInference, .created .ok (some 1))] (.submit
      1)) :
    Reach stillClock ok oneQueued [(createInference, .created .ok (some 2)), (.submit 1, .status .ok),
      (createInference, .created .ok (some 1))] := by
  refine Reach.after (Reach.after (Reach.after reach_start _ _ (hcreate _ _) ?_) _ _ hsubmit ?_)
    _ _ (hcreate _ _) ?_
  · rfl
  · rfl
  · rfl

theorem policyInRange_createInference : PolicyInRange createInference := by
  intro p hp
  cases hp
  decide

theorem discipline_createInference (h : List Event) : SyscallDiscipline s h createInference := by
  intro p hp
  cases hp
  decide

theorem known_createInference : Known s createInference := by
  intro id hid
  cases hid

theorem careful_createInference (s : SchedState) (h : List Event) : Careful s h createInference :=
  ⟨policyInRange_createInference, trivial, trivial⟩

theorem careful_submit_new : Careful (after createInference start)
    [(createInference, .created .ok (some 1))] (.submit 1) :=
  ⟨trivial, fun _ _ _ => by decide, trivial⟩

theorem careful_submit_second : Careful oneQueued [(createInference, .created .ok (some 2)),
    (.submit 1, .status .ok), (createInference, .created .ok (some 1))] (.submit 2) :=
  ⟨trivial, fun _ _ _ => by decide, trivial⟩

theorem queues_exact_oneQueued : ∃ s h, Reach stillClock Careful s h ∧
    ∃ Q, QueuesExact s (submitted h) Q :=
  ⟨_, _, reach_oneQueued careful_createInference careful_submit_new,
    queues_exact (reach_oneQueued careful_createInference careful_submit_new)⟩

theorem calls_return_oneQueued : ∃ s h, Reach stillClock Careful s h ∧ Careful s h (.submit 2) ∧
    WeightPositive s (.submit 2) ∧ ∃ r s', exec stillClock (.submit 2) s 257 = .done (r, s') := by
  have hr := reach_oneQueued careful_createInference careful_submit_new
  exact ⟨_, _, hr, careful_submit_second, trivial,
    calls_return hr careful_submit_second trivial (by decide)⟩

theorem queues_sorted_oneQueued : ∃ s h,
    Reach stillClock (fun s h c => SyscallDiscipline s h c ∧ TouchesSubmitted s h c) s h ∧
      ∃ Q, QueuesSorted s (submitted h) Q := by
  have hr := @reach_oneQueued (fun s h c => SyscallDiscipline s h c ∧ TouchesSubmitted s h c)
    (fun s h => ⟨discipline_createInference h, trivial⟩) ⟨.inl (.inl rfl), trivial⟩
  exact ⟨_, _, hr, queues_sorted hr⟩

theorem follows_none {xs : List Nat} (hf : Follows s none xs) : xs = [] := by
  cases xs with
  | nil => rfl
  | cons x xs => cases hf.1

/-- Suspending the task that was created but not submitted unlinks the queued one: it is ready
and submitted, but in no queue. -/
theorem suspend_unsubmitted_empties_queue : ∃ s h,
    Reach stillClock (fun s _ c => PolicyInRange c ∧ Known s c) s h ∧
      ¬ ∃ Q, QueuesExact s (submitted h) Q := by
  have hr := @reach_oneQueued (fun s _ c => PolicyInRange c ∧ Known s c)
    (fun s _ => ⟨policyInRange_createInference, known_createInference⟩)
    ⟨trivial, fun id hid => ⟨0, by cases hid; rfl⟩⟩
  refine ⟨_, _, hr.after (.suspend 2) (.status .ok) ⟨trivial, fun id hid => ⟨1, ?_⟩⟩ rfl, ?_⟩
  · cases hid
    rfl
  · rintro ⟨Q, hQ⟩
    obtain ⟨hp, hcount, -⟩ := hQ.once 0 (by decide) (by decide) rfl
    rw [follows_none (hQ.follows ⟨_, hp⟩)] at hcount
    cases hcount

/-- The same run keeps to the discipline of the system calls. -/
theorem suspend_unsubmitted_breaks_lists : ∃ s h, Reach stillClock SyscallDiscipline s h ∧
    ¬ ∃ Q, QueuesSorted s (submitted h) Q := by
  have hr := @reach_oneQueued SyscallDiscipline (fun _ _ => discipline_createInference _)
    (.inl (.inl rfl))
  refine ⟨_, _, hr.after (.suspend 2) (.status .ok) trivial rfl, ?_⟩
  rintro ⟨Q, hQ⟩
  have hmem : 0 ∈ Q ⟨1, by decide⟩ := (hQ.exact _ 0).mpr ⟨by decide, by decide, rfl, rfl⟩
  have hhead := (hQ.links ⟨1, by decide⟩).head_eq
  rw [List.head?_eq_none_iff.mp hhead.symm] at hmem
  cases hmem

/-- A task that is submitted twice is linked to itself. -/
def selfLinked : SchedState :=
  after (.submit 1) (after (.submit 1) (after createInference start))

/-- Submitting it once more never returns. -/
theorem resubmit_diverges : ∃ s h, Reach stillClock (fun s _ c => PolicyInRange c ∧ Known s c) s h ∧
    ∀ fuel, exec stillClock (.submit 1) s fuel = .diverge := by
  have hknown : ∀ s : SchedState, s.findTask 1 = some 0 → Known s (.submit 1) := by
    intro s hs id hid
    cases hid
    exact ⟨0, hs⟩
  refine ⟨selfLinked, _, (((reach_start.after createInference (.created .ok (some 1))
    ⟨policyInRange_createInference, known_createInference⟩ rfl).after (.submit 1) (.status .ok)
    ⟨trivial, hknown _ rfl⟩ rfl).after (.submit 1) (.status .ok) ⟨trivial, hknown _ rfl⟩ rfl), ?_⟩
  intro fuel
  -- the walk of `enqueue_task` starts at the task itself and stays there
  let s := adoptVruntime selfLinked 0 ⟨1, by decide⟩
  have hwalk : advance s.next
      (fun d => decide ((s.taskPool d).vruntime ≤ (s.taskPool 0).vruntime)) fuel 0 = none := by
    refine advance_self ?_ ?_ fuel
    · rfl
    · exact decide_eq_true le_rfl
  have hlink : s.link fuel 0 (s.level 0) = .diverge := link_of_no_walk rfl (lt_irrefl _) hwalk
  show (((s.link fuel 0 (s.level 0) >>= _) >>= _) >>= _) = _
  rw [hlink]
  rfl

end AiosKernel.Sched
