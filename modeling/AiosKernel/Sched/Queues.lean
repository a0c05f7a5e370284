/-
# `AiosKernel.Sched.Queues` — run queues as lists of tasks

`Lists s Q` says that the queues of `s` are the lists `Q`, one for each level,
and that no task is on two of them.  The three writes to the links (`linkFront`,
`linkAfter`, `dequeueTask`) are edits of these lists.  `Queues` adds what the
scheduler keeps about the tasks on them: sizes, levels, order and states; it is
kept by `enqueueTask` for a task on no list and by `dequeueTask` for a task on
its list.
-/
import AiosKernel.Sched.Model
import Mathlib.Data.List.Perm.Subperm

namespace AiosKernel.Sched

open Word DList List Function

namespace SchedState

section

variable (s : SchedState) (i y : Nat) (f : AiTask → AiTask) (l : Level) (h : Option Nat)

theorem setTask_taskPool :
    (s.setTask i f).taskPool y = if y = i then f (s.taskPool i) else s.taskPool y := by
  simp only [setTask, update_apply]

theorem setTask_keeps {β : Type} {π : AiTask → β} (hπ : ∀ t, π (f t) = π t) :
    π ((s.setTask i f).taskPool y) = π (s.taskPool y) := by
  rw [setTask_taskPool]
  by_cases hy : y = i
  · rw [if_pos hy, hπ, hy]
  · rw [if_neg hy]

theorem setTask?_taskPool (j : Option Nat) :
    (s.setTask? j f).taskPool y = if j = some y then f (s.taskPool y) else s.taskPool y := by
  cases j with
  | none => simp [setTask?]
  | some j =>
    rw [setTask?, setTask_taskPool]
    by_cases hy : y = j
    · simp [hy]
    · simp [hy, Ne.symm hy]

@[simp] theorem setTask?_runQueues (j : Option Nat) : (s.setTask? j f).runQueues = s.runQueues := by
  cases j <;> rfl

theorem setHead_runQueues (l' : Level) :
    (s.setHead l h).runQueues l' = if l' = l then h else s.runQueues l' := by
  simp only [setHead, update_apply]

theorem bypass_taskPool (p : Option Nat) : (s.bypass p h l).taskPool y =
    if p = some y then { s.taskPool y with next := h } else s.taskPool y := by
  cases p with
  | none => simp [bypass, setHead]
  | some p =>
    rw [bypass, setTask_taskPool]
    by_cases hy : y = p
    · simp [hy]
    · simp [hy, Ne.symm hy]

theorem bypass_runQueues (p : Option Nat) (l' : Level) : (s.bypass p h l).runQueues l' =
    if p = none ∧ l' = l then h else s.runQueues l' := by
  cases p with
  | none => simp [bypass, setHead_runQueues]
  | some p => simp [bypass, setTask]

end

end SchedState

open SchedState

/-! ## Links -/

/-- The run queues are the lists `Q`, and no task is on two of them. -/
structure Lists (s : SchedState) (Q : Level → List Nat) : Prop where
  links : ∀ l, IsList s.next s.prev (s.runQueues l) (Q l)
  apart : ∀ l l', ∀ i ∈ Q l, i ∈ Q l' → l = l'

section

variable {s s' : SchedState} {Q : Level → List Nat} {l : Level} {as bs : List Nat} {i c : Nat}

theorem Lists.congr (h : Lists s Q) (hheads : s'.runQueues = s.runQueues)
    (htasks : ∀ l, ∀ j ∈ Q l, s'.next j = s.next j ∧ s'.prev j = s.prev j) : Lists s' Q where
  links l := by
    rw [hheads]
    exact (h.links l).congr (htasks l)
  apart := h.apart

theorem lists_iff_family : Lists s Q ↔ Family s.next s.prev s.runQueues Q :=
  ⟨fun h => ⟨h.links, h.apart⟩, fun h => ⟨h.links, h.apart⟩⟩

theorem linkFront_taskPool (hne : s.runQueues l ≠ some i) (y : Nat) :
    (s.linkFront i l).taskPool y =
      if y = i then { s.taskPool i with next := s.runQueues l, prev := none }
      else if s.runQueues l = some y then { s.taskPool y with prev := some i }
      else s.taskPool y := by
  show ((s.setTask i _).setTask? (s.runQueues l) _).taskPool y = _
  rw [setTask?_taskPool, setTask_taskPool]
  by_cases hy : y = i
  · subst hy
    rw [if_neg hne, if_pos rfl, if_pos rfl]
  · rw [if_neg hy, if_neg hy]

theorem Lists.linkFront (h : Lists s Q) (hi : ∀ l, i ∉ Q l) :
    Lists (s.linkFront i l) (update Q l (i :: Q l)) := by
  have hfamily := lists_iff_family.mp h
  have hpool := linkFront_taskPool fun he => hi l (hfamily.head_mem he)
  refine lists_iff_family.mpr (hfamily.insertFront hi (fun y => ?_) (fun y => ?_) fun l' => ?_)
  · simp only [SchedState.next, hpool]
    split
    · rfl
    · split <;> rfl
  · simp only [SchedState.prev, hpool]
    split
    · rfl
    · split <;> rfl
  · simp [SchedState.linkFront, setHead_runQueues, SchedState.setTask]

theorem linkAfter_taskPool (hne : c ≠ i) (hself : s.next c ≠ some c) (hfresh : s.next c ≠ some i)
    (y : Nat) :
    (s.linkAfter i c).taskPool y =
      if y = c then { s.taskPool c with next := some i }
      else if y = i then { s.taskPool i with next := s.next c, prev := some c }
      else if s.next c = some y then { s.taskPool y with prev := some i }
      else s.taskPool y := by
  have hnext : (s.setTask i fun t => { t with next := s.next c, prev := some c }).next c =
      s.next c := by
    simp only [SchedState.next, setTask_taskPool, if_neg hne]
  simp only [SchedState.linkAfter, hnext, setTask?_taskPool, setTask_taskPool, if_neg hne,
    if_neg hself]
  by_cases hy : y = c
  · simp [hy]
  · by_cases hy' : y = i
    · simp only [hy', if_true, if_neg hne.symm, if_neg hfresh]
    · simp [hy, hy']

theorem Lists.linkAfter (h : Lists s Q) (hQ : Q l = as ++ c :: bs) (hi : ∀ l, i ∉ Q l) :
    Lists (s.linkAfter i c) (update Q l (as ++ c :: i :: bs)) := by
  have hfamily := lists_iff_family.mp h
  have hlist := hfamily.list hQ
  have hnot : i ∉ as ++ c :: bs := hQ ▸ hi l
  have hci : c ≠ i := fun he => hnot (by simp [he])
  have hself := hlist.next_ne_self
  have hpool := linkAfter_taskPool hci hself fun he => hnot (by simp [hlist.next_mem he])
  refine lists_iff_family.mpr (hfamily.insertAfter hQ hi (fun y => ?_) (fun y => ?_) ?_)
  · show ((s.linkAfter i c).taskPool y).next = if y = c then some i else if y = i then s.next c
      else (s.taskPool y).next
    rw [hpool]
    split
    · rfl
    · split
      · rfl
      · split <;> rfl
  · show ((s.linkAfter i c).taskPool y).prev = if y = i then some c else if s.next c = some y
      then some i else (s.taskPool y).prev
    rw [hpool]
    by_cases hy : y = c
    · subst hy
      rw [if_pos rfl, if_neg hci, if_neg hself]
    · rw [if_neg hy]
      split
      · rfl
      · split <;> rfl
  · simp [SchedState.linkAfter, SchedState.setTask]

theorem dequeueTask_taskPool (hp : s.prev i ≠ some i) (hn : s.next i ≠ some i)
    (hpn : ∀ y, s.prev i = some y → s.next i ≠ some y) (y : Nat) :
    (s.dequeueTask i).taskPool y =
      if y = i then { s.taskPool i with next := none, prev := none }
      else if s.prev i = some y then { s.taskPool y with next := s.next i }
      else if s.next i = some y then { s.taskPool y with prev := s.prev i }
      else s.taskPool y := by
  simp only [SchedState.next, SchedState.prev] at hp hn hpn ⊢
  simp only [SchedState.dequeueTask, setSize, setTask_taskPool, setTask?_taskPool,
    bypass_taskPool, if_neg hp, if_neg hn]
  by_cases hy : y = i
  · simp [hy]
  · by_cases hyp : (s.taskPool i).prev = some y
    · simp only [hyp, if_true, if_neg (hpn y hyp)]
    · simp only [hyp, if_false]
      rfl

theorem dequeueTask_runQueues (l' : Level) : (s.dequeueTask i).runQueues l' =
    if s.prev i = none ∧ l' = s.level i then s.next i else s.runQueues l' := by
  simp only [SchedState.dequeueTask, setSize, setTask, setTask?_runQueues, bypass_runQueues]
  rfl

theorem Lists.dequeueTask (h : Lists s Q) (hQ : Q (s.level i) = as ++ i :: bs) :
    Lists (s.dequeueTask i) (update Q (s.level i) (as ++ bs)) ∧
      ∀ y, (s.dequeueTask i).taskPool y =
        if y = i then { s.taskPool i with next := none, prev := none }
        else if s.prev i = some y then { s.taskPool y with next := s.next i }
        else if s.next i = some y then { s.taskPool y with prev := s.prev i }
        else s.taskPool y := by
  have hfamily := lists_iff_family.mp h
  have hlist := hfamily.list hQ
  have hpool := dequeueTask_taskPool hlist.prev_ne_self hlist.next_ne_self
    fun _ => hlist.prev_ne_next
  refine ⟨lists_iff_family.mpr (hfamily.unlink hQ (fun y hy => ?_) (fun y hy => ?_)
    dequeueTask_runQueues), hpool⟩
  · show ((s.dequeueTask i).taskPool y).next = _
    rw [hpool, if_neg hy]
    split
    · rfl
    · split <;> rfl
  · show ((s.dequeueTask i).taskPool y).prev = _
    rw [hpool, if_neg hy]
    split
    · rename_i hprev
      rw [if_neg (hlist.prev_ne_next hprev)]
      rfl
    · split <;> rfl

end

/-! ## What the writes to the links leave -/

def AiTask.unlinked (t : AiTask) : AiTask := { t with next := none, prev := none }

/-- Nothing but the queues has changed. -/
structure Relinked (s s' : SchedState) : Prop where
  tasks : ∀ j, (s'.taskPool j).unlinked = (s.taskPool j).unlinked
  poolNext : s'.taskPoolNext = s.taskPoolNext
  nextId : s'.nextTaskId = s.nextTaskId
  current : s'.currentTask = s.currentTask

namespace Relinked

variable {s s' s'' : SchedState}

section

variable (h : Relinked s s')
include h

theorem trans (h' : Relinked s' s'') : Relinked s s'' where
  tasks j := (h'.tasks j).trans (h.tasks j)
  poolNext := h'.poolNext.trans h.poolNext
  nextId := h'.nextId.trans h.nextId
  current := h'.current.trans h.current

theorem id (j : Nat) : (s'.taskPool j).id = (s.taskPool j).id := by
  show (s'.taskPool j).unlinked.id = (s.taskPool j).unlinked.id
  rw [h.tasks j]

theorem state (j : Nat) : (s'.taskPool j).state = (s.taskPool j).state := by
  show (s'.taskPool j).unlinked.state = (s.taskPool j).unlinked.state
  rw [h.tasks j]

theorem vruntime (j : Nat) : (s'.taskPool j).vruntime = (s.taskPool j).vruntime := by
  show (s'.taskPool j).unlinked.vruntime = (s.taskPool j).unlinked.vruntime
  rw [h.tasks j]

theorem sched (j : Nat) : (s'.taskPool j).sched = (s.taskPool j).sched := by
  show (s'.taskPool j).unlinked.sched = (s.taskPool j).unlinked.sched
  rw [h.tasks j]

theorem level (j : Nat) : s'.level j = s.level j := by
  rw [SchedState.level, SchedState.level, h.sched j]

end

section

variable (s : SchedState)

theorem setTask (i : Nat) {f : AiTask → AiTask}
    (hf : ∀ t, (f t).unlinked = t.unlinked) : Relinked s (s.setTask i f) :=
  ⟨fun j => setTask_keeps s i j f hf, rfl, rfl, rfl⟩

theorem setTask? (i : Option Nat) {f : AiTask → AiTask}
    (hf : ∀ t, (f t).unlinked = t.unlinked) : Relinked s (s.setTask? i f) := by
  cases i with
  | none => exact ⟨fun _ => rfl, rfl, rfl, rfl⟩
  | some i => exact setTask s i hf

theorem setHead (l : Level) (h : Option Nat) : Relinked s (s.setHead l h) :=
  ⟨fun _ => rfl, rfl, rfl, rfl⟩

theorem linkFront (i : Nat) (l : Level) : Relinked s (s.linkFront i l) := by
  refine ((setTask s i ?_).trans (setTask? _ _ ?_)).trans (setHead _ l _)
  · exact fun _ => rfl
  · exact fun _ => rfl

theorem linkAfter (i c : Nat) : Relinked s (s.linkAfter i c) := by
  dsimp only [SchedState.linkAfter]
  refine ((setTask s i ?_).trans (setTask? _ _ ?_)).trans (setTask _ c ?_)
  · exact fun _ => rfl
  · exact fun _ => rfl
  · exact fun _ => rfl

theorem bypass (p h : Option Nat) (l : Level) : Relinked s (s.bypass p h l) := by
  cases p with
  | none => exact setHead s l h
  | some p =>
    dsimp only [SchedState.bypass]
    exact setTask s p fun _ => rfl

theorem dequeueTask (i : Nat) : Relinked s (s.dequeueTask i) := by
  have hsize : ∀ {s' : SchedState} (l : Level) (n : Nat), Relinked s s' →
      Relinked s (s'.setSize l n) := fun _ _ h => { h with }
  refine hsize _ _ (((bypass s _ _ _).trans (setTask? _ _ ?_)).trans (setTask _ i ?_))
  · exact fun _ => rfl
  · exact fun _ => rfl

end

end Relinked

theorem linkFront_queueSizes (s : SchedState) (i : Nat) (l : Level) :
    (s.linkFront i l).queueSizes = s.queueSizes := by
  simp only [linkFront]
  cases s.runQueues l <;> rfl

theorem setTask?_queueSizes (s : SchedState) (i : Option Nat) (f : AiTask → AiTask) :
    (s.setTask? i f).queueSizes = s.queueSizes := by
  cases i <;> rfl

theorem dequeueTask_queueSizes (s : SchedState) (i : Nat) : (s.dequeueTask i).queueSizes =
    update s.queueSizes (s.level i) (sub32 (s.queueSizes (s.level i)) 1) := by
  have hbypass : ∀ p h l, (s.bypass p h l).queueSizes = s.queueSizes := by
    intro p h l
    cases p <;> rfl
  simp only [dequeueTask, setSize, setTask, setTask?_queueSizes, hbypass]

/-! ## Sorted insertion -/

section

variable {s s' : SchedState} {Q : Level → List Nat} {l : Level} {i : Nat} {clk : Nat → Nat}

/-- The first task has run no longer than the second. -/
def RanLess (s : SchedState) (i j : Nat) : Prop := (s.taskPool i).vruntime ≤ (s.taskPool j).vruntime

instance (s : SchedState) (i j : Nat) : Decidable (RanLess s i j) :=
  inferInstanceAs (Decidable (_ ≤ _))

section

variable {fuel a : Nat} (hhead : s.runQueues l = some a)
  (hnot : ¬ (s.taskPool i).vruntime < (s.taskPool a).vruntime)
include hhead hnot

theorem link_of_walk {c : Nat} (hwalk : advance s.next
    (fun d => decide ((s.taskPool d).vruntime ≤ (s.taskPool i).vruntime)) fuel a = some c) :
    s.link fuel i l = .done (s.linkAfter i c) := by
  simp only [SchedState.link, hhead, if_neg hnot, hwalk]

theorem link_of_no_walk (hwalk : advance s.next
    (fun d => decide ((s.taskPool d).vruntime ≤ (s.taskPool i).vruntime)) fuel a = none) :
    s.link fuel i l = .diverge := by
  simp only [SchedState.link, hhead, if_neg hnot, hwalk]

end

theorem Lists.link (h : Lists s Q) (hi : ∀ l, i ∉ Q l) (hs : (Q l).Pairwise (RanLess s))
    (hlen : (Q l).length ≤ MAX_TASKS) :
    ∃ s' as bs, Outcome.EndsBy MAX_TASKS (fun fuel => s.link fuel i l) s' ∧
      Q l = as ++ bs ∧ (∀ j ∈ as, RanLess s j i) ∧ (∀ j ∈ bs, ¬ RanLess s j i) ∧
      Lists s' (update Q l (as ++ i :: bs)) ∧ Relinked s s' ∧
      s'.queueSizes = s.queueSizes := by
  obtain ⟨as, bs, hQ, has, hbs⟩ := exists_place hs fun j k hjk hki => hjk.trans hki
  have hhead := (h.links l).head_eq
  rw [hQ] at hhead
  cases as with
  | nil =>
    refine ⟨s.linkFront i l, [], bs, fun fuel => .inl ?_, hQ, has, hbs, ?_, .linkFront s i l,
      linkFront_queueSizes s i l⟩
    · cases bs with
      | nil => simp [SchedState.link, hhead]
      | cons b bs =>
        have hb : (s.taskPool i).vruntime < (s.taskPool b).vruntime :=
          not_le.mp (hbs b (by simp))
        simp [SchedState.link, hhead, hb]
    · have hfront := h.linkFront (l := l) hi
      rw [hQ] at hfront
      exact hfront
  | cons a as =>
    obtain ⟨as', c, hc⟩ : ∃ as' c, a :: as = as' ++ [c] :=
      ⟨_, _, (dropLast_append_getLast (cons_ne_nil a as)).symm⟩
    have ha : ¬ (s.taskPool i).vruntime < (s.taskPool a).vruntime :=
      (has a (by simp)).not_gt
    -- with enough fuel the walk passes `as` and stops before `bs`
    have hwalk : ∀ fuel, MAX_TASKS < fuel → advance s.next
        (fun d => decide ((s.taskPool d).vruntime ≤ (s.taskPool i).vruntime)) fuel a = some c := by
      intro fuel hfuel
      have hseg := (h.links l).2
      rw [hQ] at hseg hlen
      rw [length_append, length_cons] at hlen
      have hlast : (a :: as).getLast? = some c := by simp [hc]
      rw [← hlast]
      refine advance_eq hseg (by omega) (fun y hy => ?_) (fun y hy => ?_)
      · exact decide_eq_true (has y (mem_cons_of_mem a hy))
      · exact decide_eq_false (hbs y (mem_of_mem_head? hy))
    have hQ' : Q l = as' ++ c :: bs := by rw [hQ, hc, append_assoc, singleton_append]
    refine ⟨s.linkAfter i c, a :: as, bs, fun fuel => ?_, hQ, has, hbs, ?_, .linkAfter s i c,
      setTask?_queueSizes _ _ _⟩
    · by_cases hfuel : MAX_TASKS < fuel
      · exact .inl (link_of_walk hhead ha (hwalk fuel hfuel))
      · cases hadv : advance s.next
            (fun d => decide ((s.taskPool d).vruntime ≤ (s.taskPool i).vruntime)) fuel a with
        | none => exact .inr ⟨not_lt.mp hfuel, link_of_no_walk hhead ha hadv⟩
        | some d =>
          have hmono := advance_mono (Nat.le_add_right fuel (MAX_TASKS + 1)) hadv
          rw [hwalk _ (by omega)] at hmono
          rw [Option.some.inj hmono]
          exact .inl (link_of_walk hhead ha hadv)
    · have hafter := h.linkAfter hQ' hi
      rw [hc, append_assoc, singleton_append]
      exact hafter

/-! ## The queues of the scheduler -/

/-- The queues are the lists `Q` of tasks that are ready, each at its level and in order. -/
structure Queues (s : SchedState) (Q : Level → List Nat) : Prop where
  lists : Lists s Q
  sizes : ∀ l, s.queueSizes l = (Q l).length
  level : ∀ l, ∀ j ∈ Q l, s.level j = l
  sorted : ∀ l, (Q l).Pairwise (RanLess s)
  ready : ∀ l, ∀ j ∈ Q l, (s.taskPool j).state = .ready
  bound : ∀ l, ∀ j ∈ Q l, j < s.taskPoolNext
  cap : s.taskPoolNext ≤ MAX_TASKS

theorem Queues.length_le (h : Queues s Q) (l : Level) : (Q l).length ≤ MAX_TASKS := by
  have hsub : Q l ⊆ List.range s.taskPoolNext := fun j hj => mem_range.mpr (h.bound l j hj)
  have hle := ((h.lists.links l).nodup.subperm hsub).length_le
  rw [length_range] at hle
  exact hle.trans h.cap

theorem Queues.notMem_of_state (h : Queues s Q) (hi : (s.taskPool i).state ≠ .ready) :
    ∀ l, i ∉ Q l := fun l hm => hi (h.ready l i hm)

theorem Queues.congr (h : Queues s Q) (hheads : s'.runQueues = s.runQueues)
    (hsizes : s'.queueSizes = s.queueSizes) (htasks : ∀ l, ∀ j ∈ Q l, s'.taskPool j = s.taskPool j)
    (hnext : s.taskPoolNext ≤ s'.taskPoolNext) (hcap : s'.taskPoolNext ≤ MAX_TASKS) :
    Queues s' Q where
  lists := h.lists.congr hheads fun l j hj => by
    simp [SchedState.next, SchedState.prev, htasks l j hj]
  sizes l := hsizes ▸ h.sizes l
  level l j hj := by
    rw [SchedState.level, htasks l j hj]
    exact h.level l j hj
  sorted l := (h.sorted l).imp_of_mem fun {i j} hi hj hr => by
    rw [RanLess, htasks l i hi, htasks l j hj]
    exact hr
  ready l j hj := htasks l j hj ▸ h.ready l j hj
  bound l j hj := (h.bound l j hj).trans_le hnext
  cap := hcap

theorem Queues.setTask (h : Queues s Q) (hi : ∀ l, i ∉ Q l) (f : AiTask → AiTask) :
    Queues (s.setTask i f) Q := by
  refine h.congr rfl rfl (fun l j hj => ?_) le_rfl h.cap
  rw [setTask_taskPool, if_neg]
  rintro rfl
  exact hi l hj

/-- What a call on the task `i` may change: that task, but not its id and policy, and links. -/
structure Frame (i : Nat) (s s' : SchedState) : Prop where
  tasks : ∀ j, j ≠ i → (s'.taskPool j).unlinked = (s.taskPool j).unlinked
  id : (s'.taskPool i).id = (s.taskPool i).id
  policy : (s'.taskPool i).sched.policy = (s.taskPool i).sched.policy
  poolNext : s'.taskPoolNext = s.taskPoolNext
  nextId : s'.nextTaskId = s.nextTaskId

theorem Relinked.frame (h : Relinked s s') (i : Nat) : Frame i s s' :=
  ⟨fun j _ => h.tasks j, h.id i, congrArg SchedParams.policy (h.sched i), h.poolNext, h.nextId⟩

theorem Frame.trans {s'' : SchedState} (h : Frame i s s') (h' : Frame i s' s'') : Frame i s s'' where
  tasks j hj := (h'.tasks j hj).trans (h.tasks j hj)
  id := h'.id.trans h.id
  policy := h'.policy.trans h.policy
  poolNext := h'.poolNext.trans h.poolNext
  nextId := h'.nextId.trans h.nextId

section

variable (h : Frame i s s')
include h

theorem Frame.id_eq (j : Nat) : (s'.taskPool j).id = (s.taskPool j).id := by
  by_cases hj : j = i
  · rw [hj, h.id]
  · show (s'.taskPool j).unlinked.id = (s.taskPool j).unlinked.id
    rw [h.tasks j hj]

theorem Frame.policy_eq (j : Nat) : (s'.taskPool j).sched.policy = (s.taskPool j).sched.policy := by
  by_cases hj : j = i
  · rw [hj, h.policy]
  · show (s'.taskPool j).unlinked.sched.policy = (s.taskPool j).unlinked.sched.policy
    rw [h.tasks j hj]

theorem Frame.level_eq (j : Nat) : s'.level j = s.level j := by
  rw [SchedState.level, SchedState.level, h.policy_eq]

theorem Frame.state_eq {j : Nat} (hj : j ≠ i) : (s'.taskPool j).state = (s.taskPool j).state := by
  show (s'.taskPool j).unlinked.state = (s.taskPool j).unlinked.state
  rw [h.tasks j hj]

end

theorem Frame.setTask (s : SchedState) (i : Nat) {f : AiTask → AiTask} (hid : ∀ t, (f t).id = t.id)
    (hpolicy : ∀ t, (f t).sched.policy = t.sched.policy) : Frame i s (s.setTask i f) := by
  refine ⟨fun j hj => ?_, ?_, ?_, rfl, rfl⟩
  · rw [setTask_taskPool, if_neg hj]
  · rw [setTask_taskPool, if_pos rfl, hid]
  · rw [setTask_taskPool, if_pos rfl, hpolicy]

theorem Queues.mem_remove (h : Queues s Q) (hQ : Q (s.level i) = as ++ i :: bs) (l' : Level)
    (j : Nat) : j ∈ update Q (s.level i) (as ++ bs) l' ↔ j ≠ i ∧ j ∈ Q l' := by
  have hd := (h.lists.links (s.level i)).nodup
  rw [hQ] at hd
  by_cases hl : l' = s.level i
  · subst hl
    rw [update_self, hQ]
    have hne : j ∈ as ++ bs → j ≠ i := by
      rintro hj rfl
      exact (nodup_middle.mp hd).notMem hj
    constructor
    · intro hj
      exact ⟨hne hj, by simp only [mem_append, mem_cons] at hj ⊢; tauto⟩
    · rintro ⟨hj, hm⟩
      simp only [mem_append, mem_cons] at hm ⊢
      tauto
  · rw [update_of_ne hl]
    refine ⟨fun hj => ⟨?_, hj⟩, And.right⟩
    rintro rfl
    exact hl (h.level l' j hj).symm

theorem mem_insert_queue (hQ : Q l = as ++ bs) (l' : Level) (j : Nat) :
    j ∈ update Q l (as ++ i :: bs) l' ↔ j = i ∧ l' = l ∨ j ∈ Q l' := by
  by_cases hl : l' = l
  · subst hl
    rw [update_self, hQ]
    simp only [mem_append, mem_cons, and_true]
    tauto
  · simp [hl]

theorem sorted_insert_queue (hs : ∀ l', (Q l').Pairwise (RanLess s)) (hQ : Q l = as ++ bs)
    (has : ∀ j ∈ as, RanLess s j i) (hbs : ∀ j ∈ bs, RanLess s i j) (l' : Level) :
    (update Q l (as ++ i :: bs) l').Pairwise (RanLess s) := by
  refine (forall_update_iff Q fun _ q => q.Pairwise (RanLess s)).mpr ⟨?_, fun l' _ => hs l'⟩ l'
  have hold := hs l
  rw [hQ, pairwise_append] at hold
  rw [pairwise_append, pairwise_cons]
  exact ⟨hold.1, ⟨hbs, hold.2.1⟩, fun j hj => forall_mem_cons.mpr ⟨has j hj, hold.2.2 j hj⟩⟩

theorem Queues.dequeueTask (h : Queues s Q) (hi : i ∈ Q l) :
    ∃ Q', Queues (s.dequeueTask i) Q' ∧ ∀ l' j, j ∈ Q' l' ↔ j ≠ i ∧ j ∈ Q l' := by
  obtain rfl := h.level l i hi
  obtain ⟨as, bs, hQ⟩ := append_of_mem hi
  have hr := Relinked.dequeueTask s i
  have hmem := h.mem_remove hQ
  refine ⟨_, ⟨(h.lists.dequeueTask hQ).1, ?_, ?_, ?_, ?_, ?_, ?_⟩, hmem⟩
  · intro l'
    rw [dequeueTask_queueSizes, update_apply, update_apply]
    split
    · have hle := h.length_le (s.level i)
      rw [h.sizes, sub32_eq]
      iterate 2
        · rw [hQ]
          simp only [length_append, length_cons]
          omega
      · exact hle.trans_lt (by decide)
    · exact h.sizes l'
  · intro l' j hj
    rw [hr.level]
    exact h.level l' j ((hmem l' j).mp hj).2
  · intro l'
    have hsub : (update Q (s.level i) (as ++ bs) l').Sublist (Q l') := by
      by_cases hl : l' = s.level i
      · subst hl
        rw [update_self, hQ]
        exact List.Sublist.append_left (sublist_cons_self i bs) as
      · rw [update_of_ne hl]
    refine ((h.sorted l').sublist hsub).imp fun {x y} hxy => ?_
    rw [RanLess, hr.vruntime, hr.vruntime]
    exact hxy
  · intro l' j hj
    rw [hr.state]
    exact h.ready l' j ((hmem l' j).mp hj).2
  · intro l' j hj
    rw [hr.poolNext]
    exact h.bound l' j ((hmem l' j).mp hj).2
  · rw [hr.poolNext]
    exact h.cap

theorem Queues.enqueueTask (h : Queues s Q) (hi : ∀ l, i ∉ Q l) (hlt : i < s.taskPoolNext) :
    ∃ s' Q', Outcome.EndsBy MAX_TASKS (fun fuel => s.enqueueTask fuel clk i) s' ∧ Queues s' Q' ∧
      (∀ l j, j ∈ Q' l ↔ j = i ∧ l = s.level i ∨ j ∈ Q l) ∧ Frame i s s' ∧
      (s'.taskPool i).state = .ready ∧ s'.currentTask = s.currentTask := by
  obtain ⟨s₁, as, bs, hends, hQ, has, hbs, hlists, hr, hsizes⟩ :=
    h.lists.link hi (h.sorted (s.level i)) (h.length_le (s.level i))
  let stamp := fun t : AiTask => { t with state := .ready, lastReadyNs := s₁.now clk }
  let s₂ := (s₁.setSize (s.level i) (u32 (s₁.queueSizes (s.level i) + 1))).setTask i stamp
  have hpool : ∀ j, s₂.taskPool j = if j = i then stamp (s₁.taskPool i) else s₁.taskPool j :=
    fun j => setTask_taskPool _ i j stamp
  -- the stamp writes the state and the time, neither the links nor what the order looks at
  have hkeeps : ∀ {β : Type} {π : AiTask → β}, (∀ t, π (stamp t) = π t) → ∀ j,
      π (s₂.taskPool j) = π (s₁.taskPool j) := fun hπ j => setTask_keeps _ i j stamp hπ
  have hvr : ∀ j, (s₂.taskPool j).vruntime = (s.taskPool j).vruntime :=
    fun j => (hkeeps (fun _ => rfl) j).trans (hr.vruntime j)
  have hsched : ∀ j, (s₂.taskPool j).sched = (s.taskPool j).sched :=
    fun j => (hkeeps (fun _ => rfl) j).trans (hr.sched j)
  have hmem : ∀ l j, j ∈ update Q (s.level i) (as ++ i :: bs) l ↔
      j = i ∧ l = s.level i ∨ j ∈ Q l := mem_insert_queue hQ
  refine ⟨s₂.tickClock, _, ?_, ⟨?_, ?_, ?_, ?_, ?_, ?_, ?_⟩, hmem, ?_, ?_, ?_⟩
  · exact hends.bind (Outcome.EndsBy.done MAX_TASKS s₂.tickClock)
  · refine hlists.congr rfl fun l j _ => ?_
    exact ⟨hkeeps (fun _ => rfl) j, hkeeps (fun _ => rfl) j⟩
  · intro l
    show update s₁.queueSizes _ _ l = _
    rw [update_apply, update_apply, hsizes]
    split
    · have hle := h.length_le (s.level i)
      have hsize := h.sizes (s.level i)
      rw [hQ, length_append] at hle hsize
      rw [hsize, u32_eq, length_append, length_cons, Nat.add_assoc]
      exact (Nat.succ_le_succ hle).trans_lt (by decide)
    · exact h.sizes l
  · intro l j hj
    show queueLevel (s₂.taskPool j).sched.policy = l
    rw [hsched]
    rcases (hmem l j).mp hj with ⟨rfl, rfl⟩ | hj
    · rfl
    · exact h.level l j hj
  · intro l
    have hsorted := sorted_insert_queue h.sorted hQ has (fun j hj => Nat.le_of_not_le (hbs j hj)) l
    refine hsorted.imp fun {j k} hjk => ?_
    show (s₂.taskPool j).vruntime ≤ (s₂.taskPool k).vruntime
    rw [hvr, hvr]
    exact hjk
  · intro l j hj
    show (s₂.taskPool j).state = .ready
    rw [hpool]
    split
    · rfl
    · rename_i hji
      rw [hr.state]
      rcases (hmem l j).mp hj with ⟨hj, -⟩ | hj
      · exact absurd hj hji
      · exact h.ready l j hj
  · intro l j hj
    show j < s₁.taskPoolNext
    rw [hr.poolNext]
    rcases (hmem l j).mp hj with ⟨rfl, -⟩ | hj
    · exact hlt
    · exact h.bound l j hj
  · show s₁.taskPoolNext ≤ MAX_TASKS
    rw [hr.poolNext]
    exact h.cap
  · refine ⟨fun j hj => ?_, ?_, congrArg SchedParams.policy (hsched i), hr.poolNext, hr.nextId⟩
    · show (s₂.taskPool j).unlinked = (s.taskPool j).unlinked
      rw [hpool, if_neg hj]
      exact hr.tasks j
    · show (s₂.taskPool i).id = (s.taskPool i).id
      rw [hpool, if_pos rfl]
      exact hr.id i
  · show (s₂.taskPool i).state = .ready
    rw [hpool, if_pos rfl]
  · exact hr.current

end

end AiosKernel.Sched
