/-
# `AiosKernel.Sched.Pick` — real-time tasks that missed their deadline

`ai_sched_pick_next` looks at the levels from 0 upwards and takes the first head
it finds.  At level 0 it first tests the deadline, fails a task that has run past
it, and is to "try next".  The `continue` that does this belongs to the loop over
the levels, so the next task is looked for one level down: however many tasks
have missed their deadline, one of them is discarded per call, and the real-time
tasks behind it are passed over.

`Discards` is the discarding the comment describes.  `PickedRight` relates the
call to it, in every run: they agree exactly if a head that missed its deadline
is the only task of its queue.
-/
import AiosKernel.Sched.Levels

namespace AiosKernel.Sched

open Word SchedState

/-! ## What the call is to do -/

/-- The level whose deadlines are tested. -/
def realtime : Level := ⟨0, by decide⟩

/-- Heads of the real-time queue fail as long as they have missed their deadline. -/
inductive Discards : SchedState → SchedState → Prop where
  | stop {s : SchedState} (meets : ∀ i, s.runQueues realtime = some i →
      deadlineMissed realtime (s.taskPool i) = false) : Discards s s
  | fail {s s' : SchedState} {i : Nat} (head : s.runQueues realtime = some i)
      (missed : deadlineMissed realtime (s.taskPool i) = true) (rest : Discards (failTask s i) s') :
      Discards s s'

/-- The head of the lowest-numbered queue that is not empty. -/
def lowestHead (s : SchedState) : Option Nat :=
  (List.finRange NUM_PRIORITY_LEVELS).findSome? s.runQueues

/-- The task, if there is one, becomes the current one. -/
def runHead (clk : Nat → Nat) (s : SchedState) (task : Option Nat) : SchedState :=
  task.elim s (runTask clk s)

def Queued (s : SchedState) (l : Level) (j : Nat) : Prop :=
  ∃ i, s.runQueues l = some i ∧ Relation.ReflTransGen (fun a b => s.next a = some b) i j

/-- All heads that missed their deadline are discarded, then the lowest head runs. -/
def DiscardsThenRuns (clk : Nat → Nat) (s : SchedState) (task : Option Nat) (s' : SchedState) :
    Prop :=
  ∃ s₁, Discards s s₁ ∧ task = lowestHead s₁ ∧ s' = runHead clk s₁ task

/-- `ai_sched_pick_next` on `s` returns `task` and leaves `s'`, as it should. -/
structure PickedRight (clk : Nat → Nat) (s : SchedState) (task : Option Nat) (s' : SchedState) :
    Prop where
  picks : DiscardsThenRuns clk s task s'
  null_empty : task = none → ∀ l, s'.runQueues l = none
  realtime_first : ∀ i, task = some i → s'.level i ≠ realtime →
    ∀ j, Queued s' realtime j → deadlineMissed realtime (s'.taskPool j) = true

section

variable {clk : Nat → Nat} {s s' : SchedState} {task : Option Nat} {i : Nat} {l : Level}

/-! ## The heads after a step -/

theorem failTask_runQueues : (failTask s i).runQueues l =
      if s.prev i = none ∧ l = s.level i then s.next i else s.runQueues l :=
  dequeueTask_runQueues l

theorem runTask_runQueues : (runTask clk s i).runQueues l =
      if s.prev i = none ∧ l = s.level i then s.next i else s.runQueues l := by
  rw [← dequeueTask_runQueues]
  simp only [runTask]
  split <;> rfl

theorem runTask_level (clk : Nat → Nat) (s : SchedState) (i : Nat) :
    (runTask clk s i).level i = s.level i := by
  rw [SchedState.level, SchedState.level, runTask_sched]

theorem runTask_realtime (hi : s.level i ≠ realtime) :
    (runTask clk s i).runQueues realtime = s.runQueues realtime := by
  rw [runTask_runQueues, if_neg fun h => hi h.2.symm]

/-! ## The loop over the levels -/

def lowerLevels : List Level := (List.finRange NUM_PRIORITY_LEVELS).tail

theorem finRange_levels : List.finRange NUM_PRIORITY_LEVELS = realtime :: lowerLevels := by
  decide

theorem ne_realtime_of_mem : ∀ l ∈ lowerLevels, l ≠ realtime := by
  decide

theorem not_deadlineMissed (hl : l ≠ realtime) (t : AiTask) : deadlineMissed l t = false := by
  have hval : ¬ l.val = 0 := fun h => hl (Fin.ext h)
  simp [deadlineMissed, hval]

theorem pickFrom_eq {ls : List Level} (hmeets : ∀ l ∈ ls, ∀ i, s.runQueues l = some i →
    deadlineMissed l (s.taskPool i) = false) :
    pickFrom clk ls s = (ls.findSome? s.runQueues, runHead clk s (ls.findSome? s.runQueues)) := by
  induction ls with
  | nil => rfl
  | cons l ls ih =>
    have ih := ih fun l' hl' => hmeets l' (List.mem_cons_of_mem _ hl')
    cases hhead : s.runQueues l with
    | none => simp only [pickFrom, List.findSome?_cons, hhead, ih]
    | some i =>
      have hnot := hmeets l List.mem_cons_self i hhead
      simp [pickFrom, hhead, hnot, runHead]

theorem pickFrom_lowerLevels : pickFrom clk lowerLevels s =
    (lowerLevels.findSome? s.runQueues, runHead clk s (lowerLevels.findSome? s.runQueues)) :=
  pickFrom_eq fun l hl _ _ => not_deadlineMissed (ne_realtime_of_mem l hl) _

theorem lowestHead_of_some (hhead : s.runQueues realtime = some i) : lowestHead s = some i := by
  simp [lowestHead, finRange_levels, hhead]

theorem aiSchedPickNext_of_meets (hmeets : ∀ i, s.runQueues realtime = some i →
    deadlineMissed realtime (s.taskPool i) = false) :
    aiSchedPickNext clk s = (lowestHead s, runHead clk s (lowestHead s)) := by
  refine pickFrom_eq fun l _ i hhead => ?_
  by_cases hl : l = realtime
  · subst hl
    exact hmeets i hhead
  · exact not_deadlineMissed hl _

theorem aiSchedPickNext_of_missed (hhead : s.runQueues realtime = some i)
    (hmissed : deadlineMissed realtime (s.taskPool i) = true) :
    aiSchedPickNext clk s = pickFrom clk lowerLevels (failTask s i) := by
  rw [aiSchedPickNext, finRange_levels, pickFrom, hhead]
  exact if_pos hmissed

/-! ## What discarding guarantees -/

theorem Discards.leveled (h : Discards s s') (hs : Leveled s) : Leveled s' := by
  induction h with
  | stop => exact hs
  | fail head _ _ ih => exact ih (hs.failTask head)

theorem DiscardsThenRuns.null_empty (h : DiscardsThenRuns clk s none s') (l : Level) :
    s'.runQueues l = none := by
  obtain ⟨s₁, -, hlowest, rfl⟩ := h
  exact List.findSome?_eq_none_iff.mp hlowest.symm l (List.mem_finRange l)

theorem DiscardsThenRuns.realtime_empty (h : DiscardsThenRuns clk s (some i) s') (hs : Leveled s)
    (hi : s'.level i ≠ realtime) : s'.runQueues realtime = none := by
  obtain ⟨s₁, hdiscards, hlowest, rfl⟩ := h
  have hlevel : s₁.level i ≠ realtime := by
    rw [← runTask_level clk s₁ i]
    exact hi
  refine (runTask_realtime hlevel).trans ?_
  cases hhead : s₁.runQueues realtime with
  | none => rfl
  | some k =>
    rw [lowestHead_of_some hhead] at hlowest
    cases hlowest
    exact absurd ((hdiscards.leveled hs).heads _ _ hhead).2 hlevel

theorem DiscardsThenRuns.pickedRight (h : DiscardsThenRuns clk s task s') (hs : Leveled s) :
    PickedRight clk s task s' where
  picks := h
  null_empty := by
    rintro rfl
    exact h.null_empty
  realtime_first := by
    rintro i rfl hi j ⟨k, hk, -⟩
    rw [h.realtime_empty hs hi] at hk
    cases hk

/-! ## What the call does -/

theorem failTask_leaves_head (hs : Leveled s) (hhead : s.runQueues realtime = some i)
    (hlinked : ¬ (s.next i = none ∧ s.prev i = none)) :
    ∃ j, (failTask s i).runQueues realtime = some j := by
  have hlevel : s.level i = realtime := (hs.heads _ _ hhead).2
  rw [failTask_runQueues]
  by_cases hprev : s.prev i = none
  · rw [if_pos ⟨hprev, hlevel.symm⟩]
    exact Option.ne_none_iff_exists'.mp fun hnext => hlinked ⟨hnext, hprev⟩
  · rw [if_neg fun h => hprev h.1]
    exact ⟨i, hhead⟩

/-- In every run, `ai_sched_pick_next` discards what it should and returns the lowest head if and
only if a real-time head that missed its deadline is alone in its queue. -/
theorem pick_discards_missed_iff {h : List Event} (hr : Reach clk (fun _ _ _ => True) s h) :
    PickedRight clk s (aiSchedPickNext clk s).1 (aiSchedPickNext clk s).2 ↔
      ∀ i, s.runQueues realtime = some i → deadlineMissed realtime (s.taskPool i) = true →
        s.next i = none ∧ s.prev i = none := by
  have hs := hr.settled.leveled
  constructor
  · intro hright i hhead hmissed
    by_contra hlinked
    obtain ⟨j, hj⟩ := failTask_leaves_head hs hhead hlinked
    rw [aiSchedPickNext_of_missed hhead hmissed, pickFrom_lowerLevels] at hright
    cases hfound : lowerLevels.findSome? (failTask s i).runQueues with
    | none =>
      rw [hfound] at hright
      have hempty : (failTask s i).runQueues realtime = none := hright.null_empty rfl realtime
      rw [hj] at hempty
      cases hempty
    | some k =>
      rw [hfound] at hright
      -- the task comes from a lower level, and `j` is still waiting
      obtain ⟨l, hl, hk⟩ := List.exists_of_findSome?_eq_some hfound
      have hlevel : (failTask s i).level k ≠ realtime := by
        rw [((hs.failTask hhead).heads l k hk).2]
        exact ne_realtime_of_mem l hl
      have hempty : (runTask clk (failTask s i) k).runQueues realtime = none := by
        refine hright.picks.realtime_empty hs ?_
        show (runTask clk (failTask s i) k).level k ≠ realtime
        rwa [runTask_level]
      rw [runTask_realtime hlevel, hj] at hempty
      cases hempty
  · intro halone
    refine DiscardsThenRuns.pickedRight ?_ hs
    by_cases hmeets : ∀ i, s.runQueues realtime = some i →
        deadlineMissed realtime (s.taskPool i) = false
    · rw [aiSchedPickNext_of_meets hmeets]
      exact ⟨s, .stop hmeets, rfl, rfl⟩
    · simp only [not_forall, Bool.not_eq_false] at hmeets
      obtain ⟨i, hhead, hmissed⟩ := hmeets
      obtain ⟨hnext, hprev⟩ := halone i hhead hmissed
      have hempty : (failTask s i).runQueues realtime = none := by
        rw [failTask_runQueues, if_pos ⟨hprev, (hs.heads _ _ hhead).2.symm⟩, hnext]
      have hlowest : lowestHead (failTask s i) = lowerLevels.findSome? (failTask s i).runQueues := by
        simp [lowestHead, finRange_levels, hempty]
      rw [aiSchedPickNext_of_missed hhead hmissed, pickFrom_lowerLevels, ← hlowest]
      refine ⟨failTask s i, .fail hhead hmissed (.stop fun j hj => ?_), rfl, rfl⟩
      rw [hempty] at hj
      cases hj

end

/-! ## Tasks that ran for six milliseconds -/

/-- `ai_task_create` with the defaults for real time: the deadline is five milliseconds. -/
def createRealtime : Call :=
  .create "rt" .inference (some (aiSchedDefaultParams 0 ⟨0, 0, 0, 0, 0, ⟨0, 0, false⟩⟩)) true

/-- Each reading of the clock is six milliseconds after the last one. -/
def slowClock : Nat → Nat := steadyClock 6000000

/-- The only task of the real-time queue has missed its deadline. -/
def overrunAlone : SchedState := stateAfter slowClock [createRealtime, .submit 1, .pickNext, .tick]

theorem pick_discards_missed_alone : ∃ s h, Reach slowClock (fun _ _ _ => True) s h ∧
    deadlineMissed realtime (s.taskPool 0) = true ∧
    PickedRight slowClock s (aiSchedPickNext slowClock s).1 (aiSchedPickNext slowClock s).2 := by
  obtain ⟨h, hr⟩ : ∃ h, Reach slowClock (fun _ _ _ => True) overrunAlone h :=
    reach_stateAfter (fun _ _ => trivial) (by decide +kernel)
  refine ⟨overrunAlone, h, hr, by decide, (pick_discards_missed_iff hr).mpr fun i hi _ => ?_⟩
  obtain rfl : 0 = i := Option.some.inj (Eq.trans (by rfl) hi)
  exact ⟨rfl, rfl⟩

/-- A real-time task waits behind one that missed its deadline, and an inference task waits. -/
def overrunFirst : SchedState := stateAfter slowClock [createRealtime, createRealtime,
  createInference, .submit 1, .submit 3, .pickNext, .tick, .submit 2]

/-- The inference task is picked, and the real-time task is left waiting. -/
theorem pick_passes_over_realtime : ∃ s h, Reach slowClock (fun _ _ _ => True) s h ∧
    (aiSchedPickNext slowClock s).1 = some 2 ∧
    (aiSchedPickNext slowClock s).2.runQueues realtime = some 1 ∧
    deadlineMissed realtime ((aiSchedPickNext slowClock s).2.taskPool 1) = false ∧
    ¬ PickedRight slowClock s (aiSchedPickNext slowClock s).1 (aiSchedPickNext slowClock s).2 := by
  obtain ⟨h, hr⟩ : ∃ h, Reach slowClock (fun _ _ _ => True) overrunFirst h :=
    reach_stateAfter (fun _ _ => trivial) (by decide +kernel)
  refine ⟨overrunFirst, h, hr, rfl, rfl, by decide, fun hright => ?_⟩
  have hmissed := hright.realtime_first 2 rfl (by decide) 1 ⟨1, rfl, .refl⟩
  exact absurd hmissed (by decide)

end AiosKernel.Sched
