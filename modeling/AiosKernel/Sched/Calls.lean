/-
# `AiosKernel.Sched.Calls` — the calls keep the queues exact

`SchedInv s sub Q none` says that the queues `Q` hold exactly the ready tasks
among the submitted ones.  While a call works on a task it takes it off its
queue; `SchedInv s sub Q (some i)` is the invariant with the task `i` detached.
Every call that works on one task is an instance of `SchedInv.update`.
-/
import AiosKernel.Sched.Queues

namespace AiosKernel.Sched

open Word DList SchedState Outcome List Function

/-- The invariant of the scheduler, with the ids `sub` submitted so far and the task `e`
detached, if any. -/
structure SchedInv (s : SchedState) (sub : List Nat) (Q : Level → List Nat) (e : Option Nat) :
    Prop where
  queues : Queues s Q
  /-- Every submitted task that is ready is queued. -/
  complete : ∀ j < s.taskPoolNext, e ≠ some j → (s.taskPool j).state = .ready →
    (s.taskPool j).id ∈ sub → j ∈ Q (s.level j)
  queued : ∀ l, ∀ j ∈ Q l, (s.taskPool j).id ∈ sub
  /-- A task stays ready until it is submitted. -/
  pending : ∀ j < s.taskPoolNext, (s.taskPool j).id ∉ sub → (s.taskPool j).state = .ready
  current : ∀ j, s.currentTask = some j →
    e ≠ some j ∧ j < s.taskPoolNext ∧ (s.taskPool j).state = .running
  detached : ∀ i, e = some i → i < s.taskPoolNext ∧ (s.taskPool i).id ∈ sub ∧ ∀ l, i ∉ Q l
  ids : ∀ j < s.taskPoolNext, (s.taskPool j).id = j + 1
  nextId : s.nextTaskId = s.taskPoolNext + 1
  policies : ∀ j < s.taskPoolNext, (s.taskPool j).sched.policy < NUM_PRIORITY_LEVELS
  subLt : ∀ id ∈ sub, id < s.nextTaskId

section

variable {s s' : SchedState} {sub : List Nat} {Q Q' : Level → List Nat} {e e' : Option Nat}
  {i id : Nat} {clk : Nat → Nat}

theorem findTask_some (h : s.findTask id = some i) :
    i < s.taskPoolNext ∧ (s.taskPool i).id = id := by
  have hmem := mem_of_find?_eq_some h
  have hid := find?_some h
  exact ⟨mem_range.mp hmem, by simpa using hid⟩

theorem SchedInv.update (h : SchedInv s sub Q e) (he : ∀ j, e = some j → j = i)
    (hlt : i < s.taskPoolNext) (hsub : (s.taskPool i).id ∈ sub) (hf : Frame i s s')
    (hq : Queues s' Q') (hQ : ∀ l j, j ≠ i → (j ∈ Q' l ↔ j ∈ Q l))
    (he' : (e' = some i ∧ ∀ l, i ∉ Q' l) ∨
      e' = none ∧ ((s'.taskPool i).state = .ready → i ∈ Q' (s'.level i)))
    (hcur : ∀ j, s'.currentTask = some j → (s.currentTask = some j ∧ j ≠ i) ∨
      j = i ∧ e' = none ∧ (s'.taskPool i).state = .running) : SchedInv s' sub Q' e' := by
  constructor
  · exact hq
  · intro j hj hje hready hjs
    by_cases hji : j = i
    · subst hji
      rcases he' with ⟨he', -⟩ | ⟨-, hready'⟩
      · exact absurd he' hje
      · exact hready' hready
    · rw [hf.state_eq hji] at hready
      rw [hf.id_eq] at hjs
      rw [hf.level_eq]
      exact (hQ _ j hji).mpr
        (h.complete j (hf.poolNext ▸ hj) (fun he'' => hji (he j he'')) hready hjs)
  · intro l j hj
    rw [hf.id_eq]
    by_cases hji : j = i
    · rw [hji]
      exact hsub
    · exact h.queued l j ((hQ l j hji).mp hj)
  · intro j hj hjs
    rw [hf.id_eq] at hjs
    have hji : j ≠ i := by
      rintro rfl
      exact hjs hsub
    rw [hf.state_eq hji]
    exact h.pending j (hf.poolNext ▸ hj) hjs
  · intro j hj
    rcases hcur j hj with ⟨hj', hji⟩ | ⟨rfl, rfl, hrun⟩
    · obtain ⟨-, hjlt, hrun⟩ := h.current j hj'
      refine ⟨?_, hf.poolNext ▸ hjlt, by rw [hf.state_eq hji, hrun]⟩
      rintro rfl
      rcases he' with ⟨he', -⟩ | ⟨he', -⟩
      · exact hji (Option.some.inj he')
      · simp at he'
    · exact ⟨by simp, hf.poolNext ▸ hlt, hrun⟩
  · rintro j rfl
    rcases he' with ⟨he', hnot⟩ | ⟨he', -⟩
    · obtain rfl := Option.some.inj he'
      exact ⟨hf.poolNext ▸ hlt, hf.id_eq j ▸ hsub, hnot⟩
    · simp at he'
  · intro j hj
    rw [hf.id_eq]
    exact h.ids j (hf.poolNext ▸ hj)
  · rw [hf.nextId, hf.poolNext]
    exact h.nextId
  · intro j hj
    rw [hf.policy_eq]
    exact h.policies j (hf.poolNext ▸ hj)
  · rw [hf.nextId]
    exact h.subLt

/-- Submitting a task that is on no queue: it is detached until it is linked in. -/
theorem SchedInv.submit (h : SchedInv s sub Q none) (hlt : i < s.taskPoolNext)
    (hrun : (s.taskPool i).state ≠ .running) (hi : ∀ l, i ∉ Q l) :
    SchedInv s ((s.taskPool i).id :: sub) Q (some i) := by
  constructor
  · exact h.queues
  · intro j hj hji hready hjs
    rcases mem_cons.mp hjs with hid | hjs
    · rw [h.ids j hj, h.ids i hlt] at hid
      exact absurd (congrArg some (Nat.succ.inj hid).symm) hji
    · exact h.complete j hj (by simp) hready hjs
  · exact fun l j hj => mem_cons_of_mem _ (h.queued l j hj)
  · exact fun j hj hjs => h.pending j hj fun hm => hjs (mem_cons_of_mem _ hm)
  · intro j hj
    obtain ⟨-, hjlt, hjrun⟩ := h.current j hj
    refine ⟨?_, hjlt, hjrun⟩
    intro he
    cases he
    exact hrun hjrun
  · rintro j hj
    cases hj
    exact ⟨hlt, mem_cons_self, hi⟩
  · exact h.ids
  · exact h.nextId
  · exact h.policies
  · refine forall_mem_cons.mpr ⟨?_, h.subLt⟩
    rw [h.ids i hlt, h.nextId]
    exact Nat.succ_lt_succ hlt

section

variable (h : SchedInv s sub Q e) (he : ∀ j, e = some j → j = i) (hlt : i < s.taskPoolNext)
  (hsub : (s.taskPool i).id ∈ sub) (hi : ∀ l, i ∉ Q l)
include h he hlt hsub hi

theorem SchedInv.enqueueTask
    (hcur : s.currentTask ≠ some i) :
    ∃ s' Q', EndsBy MAX_TASKS (fun fuel => s.enqueueTask fuel clk i) s' ∧
      SchedInv s' sub Q' none := by
  obtain ⟨s', Q', hends, hq, hmem, hf, -, hcur'⟩ := h.queues.enqueueTask hi hlt
  refine ⟨s', Q', hends, h.update he hlt hsub hf hq ?_ (.inr ⟨rfl, fun _ => ?_⟩) ?_⟩
  · intro l j hj
    simp [hmem, hj]
  · rw [hmem, SchedState.level, hf.policy]
    exact .inl ⟨rfl, rfl⟩
  · intro j hj
    rw [hcur'] at hj
    refine .inl ⟨hj, ?_⟩
    rintro rfl
    exact hcur hj

theorem SchedInv.setTask
    {f : AiTask → AiTask} (hid : ∀ t, (f t).id = t.id)
    (hpolicy : ∀ t, (f t).sched.policy = t.sched.policy)
    (hready : e = none → (f (s.taskPool i)).state ≠ .ready)
    (hrun : s.currentTask = some i → (f (s.taskPool i)).state = .running) :
    SchedInv (s.setTask i f) sub Q e := by
  have hself : (s.setTask i f).taskPool i = f (s.taskPool i) := by
    rw [setTask_taskPool, if_pos rfl]
  refine h.update he hlt hsub (.setTask s i hid hpolicy) (h.queues.setTask hi f)
    (fun l j _ => Iff.rfl) ?_ ?_
  · cases e with
    | none => exact .inr ⟨rfl, fun hr => absurd (hself ▸ hr) (hready rfl)⟩
    | some j => exact .inl ⟨congrArg some (he j rfl), hi⟩
  · intro j hj
    have hj' : s.currentTask = some j := hj
    by_cases hji : j = i
    · subst hji
      refine .inr ⟨rfl, ?_, by rw [hself, hrun hj']⟩
      obtain ⟨hne, -, -⟩ := h.current j hj'
      cases e with
      | none => rfl
      | some k => exact absurd (congrArg some (he k rfl)) hne
    · exact .inl ⟨hj', hji⟩

end

theorem SchedInv.congr (h : SchedInv s sub Q e) (hpool : s'.taskPool = s.taskPool)
    (hnext : s'.taskPoolNext = s.taskPoolNext) (hid : s'.nextTaskId = s.nextTaskId)
    (hheads : s'.runQueues = s.runQueues) (hsizes : s'.queueSizes = s.queueSizes)
    (hcur : ∀ j, s'.currentTask = some j → s.currentTask = some j ∨
      e ≠ some j ∧ j < s.taskPoolNext ∧ (s.taskPool j).state = .running) :
    SchedInv s' sub Q e := by
  have hlevel : ∀ j, s'.level j = s.level j := by
    intro j
    rw [SchedState.level, SchedState.level, hpool]
  constructor
  · exact h.queues.congr hheads hsizes (fun l j _ => by rw [hpool]) hnext.symm.le
      (hnext ▸ h.queues.cap)
  · simp only [hpool, hnext, hlevel]
    exact h.complete
  · simp only [hpool]
    exact h.queued
  · simp only [hpool, hnext]
    exact h.pending
  · intro j hj
    rw [hpool, hnext]
    rcases hcur j hj with hj | hj
    · exact h.current j hj
    · exact hj
  · simp only [hpool, hnext]
    exact h.detached
  · simp only [hpool, hnext]
    exact h.ids
  · rw [hid, hnext]
    exact h.nextId
  · simp only [hpool, hnext]
    exact h.policies
  · rw [hid]
    exact h.subLt

theorem SchedInv.attach (h : SchedInv s sub Q (some i)) (hi : (s.taskPool i).state ≠ .ready) :
    SchedInv s sub Q none := by
  obtain ⟨hlt, hsub, -⟩ := h.detached i rfl
  refine h.update (fun j hj => (Option.some.inj hj).symm) hlt hsub
    ⟨fun _ _ => rfl, rfl, rfl, rfl, rfl⟩ h.queues (fun _ _ _ => Iff.rfl)
    (.inr ⟨rfl, fun hr => absurd hr hi⟩) fun j hj => .inl ⟨hj, ?_⟩
  rintro rfl
  exact (h.current j hj).1 rfl

variable {l : Level}

theorem SchedInv.dequeueTask (h : SchedInv s sub Q none) (hi : i ∈ Q l) :
    ∃ Q', SchedInv (s.dequeueTask i) sub Q' (some i) := by
  obtain ⟨Q', hq, hmem⟩ := h.queues.dequeueTask hi
  have hr := Relinked.dequeueTask s i
  refine ⟨Q', h.update (by simp) (h.queues.bound l i hi) (h.queued l i hi) (hr.frame i) hq ?_
    (.inl ⟨rfl, fun l' hm => ((hmem l' i).mp hm).1 rfl⟩) fun j hj => ?_⟩
  · intro l' j hj
    simp [hmem, hj]
  · rw [hr.current] at hj
    refine .inl ⟨hj, ?_⟩
    rintro rfl
    obtain ⟨-, -, hrun⟩ := h.current j hj
    rw [h.queues.ready l j hi] at hrun
    simp at hrun

/-- What `ai_task_destroy` and `ai_task_suspend` begin with detaches the task, if it has been
submitted. -/
theorem SchedInv.withdraw (h : SchedInv s sub Q none) (hlt : i < s.taskPoolNext)
    (hsub : (s.taskPool i).id ∈ sub) : ∃ Q', SchedInv (withdraw s i) sub Q' (some i) := by
  by_cases hready : (s.taskPool i).state = .ready
  · have hi := h.complete i hlt (by simp) hready hsub
    rw [Sched.withdraw, hready]
    exact h.dequeueTask hi
  · have hi := h.queues.notMem_of_state hready
    by_cases hrun : (s.taskPool i).state = .running
    · rw [Sched.withdraw, hrun]
      refine ⟨Q, h.update (by simp) hlt hsub ⟨fun _ _ => rfl, rfl, rfl, rfl, rfl⟩ ?_
        (fun _ _ _ => Iff.rfl) (.inl ⟨rfl, hi⟩) (by simp)⟩
      exact h.queues.congr rfl rfl (fun _ _ _ => rfl) le_rfl h.queues.cap
    · have hsame : Sched.withdraw s i = s := by
        rw [Sched.withdraw]
        split <;> simp_all
      rw [hsame]
      refine ⟨Q, h.update (by simp) hlt hsub ⟨fun _ _ => rfl, rfl, rfl, rfl, rfl⟩ h.queues
        (fun _ _ _ => Iff.rfl) (.inl ⟨rfl, hi⟩) fun j hj => .inl ⟨hj, ?_⟩⟩
      rintro rfl
      exact hrun (h.current j hj).2.2

theorem SchedInv.mark (h : SchedInv s sub Q (some i)) (f : AiTask → AiTask)
    (hid : ∀ t, (f t).id = t.id) (hpolicy : ∀ t, (f t).sched.policy = t.sched.policy)
    (hready : (f (s.taskPool i)).state ≠ .ready) : SchedInv (s.setTask i f) sub Q none := by
  obtain ⟨hlt, hsub, hi⟩ := h.detached i rfl
  refine SchedInv.attach (h.setTask (fun j hj => (Option.some.inj hj).symm) hlt hsub hi hid hpolicy
    (by simp) fun hc => absurd rfl (h.current i hc).1) ?_
  rw [setTask_taskPool, if_pos rfl]
  exact hready

theorem SchedInv.retire (h : SchedInv s sub Q none) (hlt : i < s.taskPoolNext)
    (hsub : (s.taskPool i).id ∈ sub) {st : TaskState} (hst : st ≠ .ready) :
    ∃ Q', SchedInv ((Sched.withdraw s i).setTask i fun t => { t with state := st }) sub Q' none := by
  obtain ⟨Q', h'⟩ := h.withdraw hlt hsub
  exact ⟨Q', h'.mark (fun t => { t with state := st }) (fun _ => rfl) (fun _ => rfl) hst⟩

theorem SchedInv.sub_of_state (h : SchedInv s sub Q e) (hlt : i < s.taskPoolNext)
    (hst : (s.taskPool i).state ≠ .ready) : (s.taskPool i).id ∈ sub := by
  by_contra hnot
  exact hst (h.pending i hlt hnot)

theorem SchedInv.release (h : SchedInv s sub Q none) :
    SchedInv { s with currentTask := none } sub Q none :=
  h.congr rfl rfl rfl rfl rfl (by simp)

theorem SchedInv.requeue (h : SchedInv s sub Q none) (hlt : i < s.taskPoolNext)
    (hst : (s.taskPool i).state ≠ .ready) (hcur : s.currentTask ≠ some i) :
    ∃ s' Q', EndsBy MAX_TASKS (fun fuel => s.enqueueTask fuel clk i) s' ∧ SchedInv s' sub Q' none :=
  h.enqueueTask (by simp) hlt (h.sub_of_state hlt hst) (h.queues.notMem_of_state hst) hcur

/-! ## The calls -/

theorem SchedInv.setStats (h : SchedInv s sub Q e) (f : SchedStats → SchedStats) :
    SchedInv (s.setStats f) sub Q e :=
  h.congr rfl rfl rfl rfl rfl fun _ hj => .inl hj

theorem SchedInv.head_mem (h : SchedInv s sub Q e) (hhead : s.runQueues l = some i) : i ∈ Q l :=
  mem_of_mem_head? ((h.queues.lists.links l).head_eq ▸ hhead)

theorem SchedInv.failTask (h : SchedInv s sub Q none) (hhead : s.runQueues l = some i) :
    ∃ Q', SchedInv (failTask s i) sub Q' none := by
  obtain ⟨Q', h'⟩ := h.dequeueTask (h.head_mem hhead)
  have hfail := h'.mark (fun t => { t with state := .failed }) (fun _ => rfl) (fun _ => rfl) (by simp)
  exact ⟨Q', hfail.setStats _⟩

def AiTask.picked (now : Nat) (t : AiTask) : AiTask :=
  { t with state := .running, lastScheduled := now
           waitTime := u64 (t.waitTime + sub64 now t.lastReadyNs) }

/-- The head of a queue is picked: it is marked as running before it becomes the current one. -/
theorem SchedInv.runTask (clk : Nat → Nat) (h : SchedInv s sub Q none)
    (hhead : s.runQueues l = some i) : ∃ Q', SchedInv (runTask clk s i) sub Q' none := by
  obtain ⟨Q', h'⟩ := h.dequeueTask (h.head_mem hhead)
  obtain ⟨hlt, -, -⟩ := h'.detached i rfl
  have hclock : SchedInv (s.dequeueTask i).tickClock sub Q' (some i) :=
    h'.congr rfl rfl rfl rfl rfl fun _ hj => .inl hj
  let run := AiTask.picked ((s.dequeueTask i).now clk)
  have hrun : SchedInv ((s.dequeueTask i).tickClock.setTask i run) sub Q' none :=
    hclock.mark run (fun _ => rfl) (fun _ => rfl) (by simp [run, AiTask.picked])
  have hself : (((s.dequeueTask i).tickClock.setTask i run).taskPool i).state = .running := by
    rw [setTask_taskPool, if_pos rfl]
    rfl
  have hcur : ∀ j, some i = some j →
      ((s.dequeueTask i).tickClock.setTask i run).currentTask = some j ∨
      none ≠ some j ∧ j < (s.dequeueTask i).taskPoolNext ∧
      (((s.dequeueTask i).tickClock.setTask i run).taskPool j).state = .running := by
    intro j hj
    cases hj
    exact .inr ⟨by simp, hlt, hself⟩
  refine ⟨Q', ?_⟩
  simp only [Sched.runTask]
  split
  all_goals exact hrun.congr rfl rfl rfl rfl rfl hcur

theorem SchedInv.pickFrom (clk : Nat → Nat) (ls : List Level) :
    ∀ {s : SchedState} {Q : Level → List Nat}, SchedInv s sub Q none →
      ∃ Q', SchedInv (pickFrom clk ls s).2 sub Q' none := by
  induction ls with
  | nil => exact fun h => ⟨_, h⟩
  | cons l ls ih =>
    intro s Q h
    cases hhead : s.runQueues l with
    | none =>
      simp only [Sched.pickFrom, hhead]
      exact ih h
    | some i =>
      simp only [Sched.pickFrom, hhead]
      split
      · obtain ⟨Q', hfail⟩ := h.failTask hhead
        exact ih hfail
      · exact h.runTask clk hhead

section

variable (h : SchedInv s sub Q none)
include h

/-- A block taken from the pool: its task is ready and has not been submitted. -/
theorem SchedInv.extend (hcap : ¬ MAX_TASKS ≤ s.taskPoolNext)
    {t : AiTask} (hpolicy : t.sched.policy < NUM_PRIORITY_LEVELS) (hid : t.id = s.nextTaskId)
    (hready : t.state = .ready) (hpool : s'.taskPool = Function.update s.taskPool s.taskPoolNext t)
    (hnext : s'.taskPoolNext = s.taskPoolNext + 1)
    (hnextId : s'.nextTaskId = u32 (s.nextTaskId + 1)) (hheads : s'.runQueues = s.runQueues)
    (hsizes : s'.queueSizes = s.queueSizes) (hcur : s'.currentTask = s.currentTask) :
    SchedInv s' sub Q none := by
  have hnew : s'.taskPool s.taskPoolNext = t := by rw [hpool, update_self]
  have hold : ∀ j < s.taskPoolNext, s'.taskPool j = s.taskPool j := fun j hj => by
    rw [hpool, update_of_ne hj.ne]
  have hidn : t.id ∉ sub := fun hm => lt_irrefl _ (hid ▸ h.subLt _ hm)
  have hnextId' : s'.nextTaskId = s.taskPoolNext + 1 + 1 := by
    rw [hnextId, h.nextId]
    exact u32_eq (by simp only [MAX_TASKS, MAX_AI_TASKS] at hcap; omega)
  -- a task of the new pool is the new one or an old one
  have hcases : ∀ j < s'.taskPoolNext, j = s.taskPoolNext ∨ j < s.taskPoolNext := by
    intro j hj
    omega
  constructor
  · exact h.queues.congr hheads hsizes (fun l j hj => hold j (h.queues.bound l j hj))
      (by omega) (by omega)
  · intro j hj _ hr hs
    rcases hcases j hj with rfl | hj
    · rw [hnew] at hs
      exact absurd hs hidn
    · rw [hold j hj] at hr hs
      rw [SchedState.level, hold j hj]
      exact h.complete j hj (by simp) hr hs
  · intro l j hj
    rw [hold j (h.queues.bound l j hj)]
    exact h.queued l j hj
  · intro j hj hs
    rcases hcases j hj with rfl | hj
    · rw [hnew]
      exact hready
    · rw [hold j hj] at hs ⊢
      exact h.pending j hj hs
  · intro j hj
    obtain ⟨hne, hlt, hrun⟩ := h.current j (hcur ▸ hj)
    exact ⟨hne, by omega, by rw [hold j hlt, hrun]⟩
  · simp
  · intro j hj
    rcases hcases j hj with rfl | hj
    · rw [hnew, hid, h.nextId]
    · rw [hold j hj]
      exact h.ids j hj
  · rw [hnextId', hnext]
  · intro j hj
    rcases hcases j hj with rfl | hj
    · rw [hnew]
      exact hpolicy
    · rw [hold j hj]
      exact h.policies j hj
  · intro x hx
    have hlt := h.subLt x hx
    rw [h.nextId] at hlt
    rw [hnextId']
    exact Nat.lt_succ_of_lt hlt

theorem SchedInv.create (clk : Nat → Nat) (name : String)
    (workload : WorkloadType) (params : Option SchedParams) (hasOut : Bool)
    (hp : ∀ p, params = some p → p.policy < NUM_PRIORITY_LEVELS) :
    SchedInv (aiTaskCreate clk name workload params hasOut s).2 sub Q none := by
  match params, hasOut with
  | none, _ => exact h
  | some params, false => exact h
  | some params, true =>
    by_cases hcap : MAX_TASKS ≤ s.taskPoolNext
    · simp only [aiTaskCreate, allocTask, if_pos hcap]
      exact h
    · simp only [aiTaskCreate, allocTask, if_neg hcap]
      refine h.extend hcap (t := newTask s.nextTaskId name workload params (s.now clk)
        { s.taskPool s.taskPoolNext with next := none, prev := none }) (hp params rfl)
        rfl rfl ?_ rfl rfl rfl rfl rfl
      simp only [tickClock, SchedState.setStats, SchedState.setTask, update_self,
        update_idem]
      rfl

theorem SchedInv.aiTaskSubmit (clk : Nat → Nat) (id : Nat)
    (hok : ∀ i, s.findTask id = some i → (s.taskPool i).state = .ready → id ∉ sub) :
    ∃ st s' Q', EndsBy MAX_TASKS (fun fuel => aiTaskSubmit fuel clk id s) (st, s') ∧
      SchedInv s' (if st = .ok then id :: sub else sub) Q' none := by
  cases hfind : s.findTask id with
  | none =>
    refine ⟨.errInval, s, Q, ?_, by simpa using h⟩
    simp only [Sched.aiTaskSubmit, hfind]
    exact .done _ _
  | some i =>
    obtain ⟨hlt, hid⟩ := findTask_some hfind
    by_cases hst : (s.taskPool i).state ≠ .ready ∧ (s.taskPool i).state ≠ .suspended
    · refine ⟨.errInval, s, Q, ?_, by simpa using h⟩
      simp only [Sched.aiTaskSubmit, hfind, if_pos hst]
      exact .done _ _
    · have hi : ∀ l, i ∉ Q l := by
        intro l hm
        exact hok i hfind (h.queues.ready l i hm) (hid ▸ h.queued l i hm)
      have hrun : (s.taskPool i).state ≠ .running := by
        intro hc
        rw [hc] at hst
        simp at hst
      have hsub := h.submit hlt hrun hi
      rw [hid] at hsub
      have hpolicy := h.policies i hlt
      -- the detached task takes over the `vruntime` of the head
      have hadopt : SchedInv (adoptVruntime s i ⟨_, hpolicy⟩) (id :: sub) Q (some i) := by
        unfold adoptVruntime
        split
        · refine hsub.setTask (fun j hj => (Option.some.inj hj).symm) hlt (by simp [hid]) hi
            ?_ ?_ (by simp) fun hc => absurd rfl (hsub.current i hc).1
          · exact fun _ => rfl
          · exact fun _ => rfl
        · exact hsub
      obtain ⟨hlt', hmem, hi'⟩ := hadopt.detached i rfl
      obtain ⟨s', Q', hends, hinv⟩ := hadopt.enqueueTask
        (fun j hj => (Option.some.inj hj).symm) hlt' hmem hi'
        fun hc => absurd rfl (hadopt.current i hc).1
      refine ⟨.ok, s', Q', ?_, by simpa using hinv⟩
      simp only [Sched.aiTaskSubmit, hfind, if_neg hst, dif_pos hpolicy]
      exact hends.bind (.done _ _)

theorem SchedInv.retire_found (hfind : s.findTask id = some i)
    (hok : ∀ i, s.findTask id = some i → (s.taskPool i).state = .ready → id ∈ sub)
    (st : TaskState) (hst : st ≠ .ready) :
    ∃ Q', SchedInv ((Sched.withdraw s i).setTask i fun t => { t with state := st }) sub Q' none := by
  obtain ⟨hlt, hid⟩ := findTask_some hfind
  refine h.retire hlt ?_ hst
  by_cases hready : (s.taskPool i).state = .ready
  · exact hid ▸ hok i hfind hready
  · exact h.sub_of_state hlt hready

section

variable (id : Nat) (hok : ∀ i, s.findTask id = some i → (s.taskPool i).state = .ready → id ∈ sub)
include hok

theorem SchedInv.aiTaskDestroy : ∃ Q', SchedInv (aiTaskDestroy id s).2 sub Q' none := by
  unfold Sched.aiTaskDestroy
  cases hfind : s.findTask id with
  | none => exact ⟨Q, h⟩
  | some i =>
    obtain ⟨Q', hinv⟩ := h.retire_found hfind hok .completed (by decide)
    exact ⟨Q', hinv.congr rfl rfl rfl rfl rfl fun _ hj => .inl hj⟩

theorem SchedInv.aiTaskSuspend : ∃ Q', SchedInv (aiTaskSuspend id s).2 sub Q' none := by
  unfold Sched.aiTaskSuspend
  cases hfind : s.findTask id with
  | none => exact ⟨Q, h⟩
  | some i => exact h.retire_found hfind hok .suspended (by decide)

end

section

variable (clk : Nat → Nat)

theorem SchedInv.aiTaskResume (id : Nat) :
    ∃ st s' Q', EndsBy MAX_TASKS (fun fuel => aiTaskResume fuel clk id s) (st, s') ∧
      SchedInv s' sub Q' none := by
  cases hfind : s.findTask id with
  | none =>
    refine ⟨.errInval, s, Q, ?_, h⟩
    simp only [Sched.aiTaskResume, hfind]
    exact .done _ _
  | some i =>
    obtain ⟨hlt, -⟩ := findTask_some hfind
    by_cases hst : (s.taskPool i).state ≠ .suspended
    · refine ⟨.errInval, s, Q, ?_, h⟩
      simp only [Sched.aiTaskResume, hfind, if_pos hst]
      exact .done _ _
    · rw [not_not] at hst
      have hcur : s.currentTask ≠ some i := by
        intro hc
        have hrun := (h.current i hc).2.2
        rw [hst] at hrun
        exact absurd hrun (by decide)
      obtain ⟨s', Q', hends, hinv⟩ := h.requeue hlt (by simp [hst]) hcur
      refine ⟨.ok, s', Q', ?_, hinv⟩
      simp only [Sched.aiTaskResume, hfind, hst, ne_eq, not_true_eq_false, if_false]
      exact hends.bind (.done _ _)

theorem SchedInv.aiTaskSetPriority (id : Nat) (priority : Int)
    (hok : ∀ i, s.findTask id = some i → (s.taskPool i).state = .ready → id ∈ sub) :
    ∃ st s' Q', EndsBy MAX_TASKS (fun fuel => aiTaskSetPriority fuel clk id priority s)
      (st, s') ∧ SchedInv s' sub Q' none := by
  cases hfind : s.findTask id with
  | none =>
    refine ⟨.errInval, s, Q, ?_, h⟩
    simp only [Sched.aiTaskSetPriority, hfind]
    exact .done _ _
  | some i =>
    obtain ⟨hlt, hid⟩ := findTask_some hfind
    let write := fun t : AiTask => { t with sched := { t.sched with priority := priority } }
    by_cases hst : (s.taskPool i).state = .ready
    · have hsub : (s.taskPool i).id ∈ sub := hid ▸ hok i hfind hst
      obtain ⟨Q₁, h₁⟩ := h.dequeueTask (h.complete i hlt (by simp) hst hsub)
      obtain ⟨hlt₁, hsub₁, hi₁⟩ := h₁.detached i rfl
      have h₂ : SchedInv ((s.dequeueTask i).setTask i write) sub Q₁ (some i) :=
        h₁.setTask (fun j hj => (Option.some.inj hj).symm) hlt₁ hsub₁ hi₁ (fun _ => rfl)
          (fun _ => rfl) (by simp) fun hc => absurd rfl (h₁.current i hc).1
      obtain ⟨hlt₂, hsub₂, hi₂⟩ := h₂.detached i rfl
      obtain ⟨s', Q', hends, hinv⟩ := h₂.enqueueTask
        (fun j hj => (Option.some.inj hj).symm) hlt₂ hsub₂ hi₂
        fun hc => absurd rfl (h₂.current i hc).1
      refine ⟨.ok, s', Q', ?_, hinv⟩
      simp only [Sched.aiTaskSetPriority, hfind, if_pos hst]
      exact hends.bind (.done _ _)
    · refine ⟨.ok, s.setTask i write, Q, ?_, ?_⟩
      · simp only [Sched.aiTaskSetPriority, hfind, if_neg hst]
        exact .done _ _
      · refine h.setTask (by simp) hlt (h.sub_of_state hlt hst) (h.queues.notMem_of_state hst)
          (fun _ => rfl) (fun _ => rfl) (fun _ => hst) fun hc => (h.current i hc).2.2

theorem SchedInv.aiSchedPreempt (id : Nat) :
    ∃ s' Q', EndsBy MAX_TASKS (fun fuel => aiSchedPreempt fuel clk id s) s' ∧
      SchedInv s' sub Q' none := by
  cases hfind : s.findTask id with
  | none =>
    refine ⟨s, Q, ?_, h⟩
    simp only [Sched.aiSchedPreempt, hfind]
    exact .done _ _
  | some i =>
    obtain ⟨hlt, -⟩ := findTask_some hfind
    by_cases hst : (s.taskPool i).state ≠ .running
    · refine ⟨s, Q, ?_, h⟩
      simp only [Sched.aiSchedPreempt, hfind, if_pos hst]
      exact .done _ _
    · rw [not_not] at hst
      obtain ⟨s', Q', hends, hinv⟩ := h.release.requeue hlt (by simp [hst]) (by simp)
      refine ⟨countPreemption s', Q', ?_, hinv.setStats _⟩
      simp only [Sched.aiSchedPreempt, hfind, hst, ne_eq, not_true_eq_false, if_false]
      exact hends.bind (.done _ _)

theorem SchedInv.aiSchedYield :
    ∃ s' Q', EndsBy MAX_TASKS (fun fuel => aiSchedYield fuel clk s) s' ∧
      SchedInv s' sub Q' none := by
  cases hcur : s.currentTask with
  | none =>
    refine ⟨s, Q, ?_, h⟩
    simp only [Sched.aiSchedYield, hcur]
    exact .done _ _
  | some i =>
    obtain ⟨-, hlt, hst⟩ := h.current i hcur
    simp only [Sched.aiSchedYield, hcur]
    exact h.release.requeue hlt (by simp [hst]) (by simp)

theorem SchedInv.checkCurrent (elapsedNs : Nat) (hcur : s.currentTask = some i) :
    ∃ s' Q', EndsBy MAX_TASKS (fun fuel => checkCurrent fuel clk s i elapsedNs) s' ∧
      SchedInv s' sub Q' none := by
  obtain ⟨-, hlt, hst⟩ := h.current i hcur
  obtain ⟨s', Q', hends, hinv⟩ := h.release.requeue hlt (by simp [hst]) (by simp)
  by_cases hslice : (s.taskPool i).sched.timeSliceNs ≤ elapsedNs
  · refine ⟨s', Q', ?_, hinv⟩
    simp only [Sched.checkCurrent, if_pos hslice]
    exact hends
  · obtain ⟨b, hb⟩ : ∃ b, higherWaiting s (s.taskPool i).sched.policy = .done b := by
      unfold higherWaiting
      split
      · exact ⟨true, rfl⟩
      · rw [if_pos (h.policies i hlt).le]
        exact ⟨false, rfl⟩
    simp only [Sched.checkCurrent, if_neg hslice, hb, Outcome.done_bind]
    cases b with
    | true => exact ⟨countPreemption s', Q', hends.bind (.done _ _), hinv.setStats _⟩
    | false => exact ⟨s, Q, .done _ _, h⟩

end

end

theorem aiSchedTick_of_current (fuel : Nat) (clk : Nat → Nat) (hcur : s.currentTask = some i) :
    aiSchedTick fuel clk s =
      { s with tickCount := u64 (s.tickCount + 1) }.tickClock.updateVruntime i
        (sub64 (s.now clk) (s.taskPool i).lastScheduled) >>= fun s' =>
      checkCurrent fuel clk s' i (sub64 (s.now clk) (s.taskPool i).lastScheduled) := by
  unfold aiSchedTick
  dsimp only
  split
  · rename_i hnone
    rw [hcur] at hnone
    cases hnone
  · rename_i j hj
    obtain rfl : i = j := Option.some.inj (hcur.symm.trans hj)
    rfl

theorem aiSchedTick_of_weight_zero (fuel : Nat) (clk : Nat → Nat) (hcur : s.currentTask = some i)
    (hzero : calcWeight (s.taskPool i).sched = 0) :
    aiSchedTick fuel clk s = .panic "Division Error" := by
  have hupd : ∀ n, { s with tickCount := u64 (s.tickCount + 1) }.tickClock.updateVruntime i n =
      .panic "Division Error" := fun n => if_pos hzero
  rw [aiSchedTick_of_current fuel clk hcur, hupd]
  rfl

theorem SchedInv.aiSchedTick (h : SchedInv s sub Q none) (clk : Nat → Nat)
    (hweight : ∀ i, s.currentTask = some i → calcWeight (s.taskPool i).sched ≠ 0) :
    ∃ s' Q', EndsBy MAX_TASKS (fun fuel => aiSchedTick fuel clk s) s' ∧
      SchedInv s' sub Q' none := by
  have h₁ : SchedInv { s with tickCount := u64 (s.tickCount + 1) } sub Q none :=
    h.congr rfl rfl rfl rfl rfl fun _ hj => .inl hj
  cases hcur : s.currentTask with
  | none =>
    refine ⟨_, Q, ?_, h₁⟩
    simp only [Sched.aiSchedTick, hcur]
    exact .done _ _
  | some i =>
    obtain ⟨-, hlt, hst⟩ := h.current i hcur
    have hnot : (s.taskPool i).state ≠ .ready := by simp [hst]
    -- the running task, which is on no queue, is charged
    let charge := fun t : AiTask =>
      let elapsedNs := sub64 (s.now clk) (s.taskPool i).lastScheduled
      { t with vruntime := u64 (t.vruntime + elapsedNs / calcWeight (s.taskPool i).sched)
               execTime := u64 (t.execTime + elapsedNs) }
    let s₂ := { s with tickCount := u64 (s.tickCount + 1) }.tickClock
    have h₂ : SchedInv s₂ sub Q none := h₁.congr rfl rfl rfl rfl rfl fun _ hj => .inl hj
    have h₃ : SchedInv (s₂.setTask i charge) sub Q none :=
      h₂.setTask (by simp) hlt (h.sub_of_state hlt hnot) (h.queues.notMem_of_state hnot)
        (fun _ => rfl) (fun _ => rfl) (fun _ => hnot) fun _ => hst
    have hupd : s₂.updateVruntime i (sub64 (s.now clk) (s.taskPool i).lastScheduled) =
        .done (s₂.setTask i charge) := if_neg (hweight i hcur)
    obtain ⟨s', Q', hends, hinv⟩ :=
      h₃.checkCurrent clk (sub64 (s.now clk) (s.taskPool i).lastScheduled) hcur
    refine ⟨s', Q', fun fuel => ?_, hinv⟩
    show Sched.aiSchedTick fuel clk s = _ ∨ _ ∧ Sched.aiSchedTick fuel clk s = _
    rw [aiSchedTick_of_current fuel clk hcur, hupd]
    exact hends fuel

end

end AiosKernel.Sched
