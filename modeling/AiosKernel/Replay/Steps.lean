/-
# `AiosKernel.Replay.Steps` — what one event of a trace can do

The checks of the semantic phase, read as propositions, and from them the two
things that let a trace go on: `Accepts`, the seven ways in which an event
changes the replay state, and `StaleIn`, the rejections that a trace has to
claim.  `semanticStep_accepted` and `semanticStep_rejected` say that the loop
body does just these.
-/
import AiosKernel.Replay.Verify

namespace AiosKernel.Replay

open Py

/-! ## Issues -/

/-- How the generation of a record relates to the one before. -/
def GenerationMode.Holds : GenerationMode → Nat → Nat → Prop
  | .exact, prior, actual => actual = prior
  | .increase, prior, actual => prior < actual

/-- The record is about the current source. -/
structure AtSource (r : EventRow) (s : ReplayState) (mode : GenerationMode) : Prop where
  inst : u64 r.sourceInstance = s.sourceInstance
  generation : mode.Holds s.sourceGeneration (u64 r.sourceGeneration)

/-- The record shows the expected binding. -/
structure Projects (r : EventRow) (e : Projection) : Prop where
  valid : r.bindingValid = e.valid
  current : r.bindingCurrent = e.current
  inst : u64 r.boundSourceInstance = e.inst
  sourceGeneration : u64 r.boundSourceGeneration = e.sourceGeneration
  generation : e.mode.Holds e.priorGeneration (u64 r.bindingGeneration)

theorem ite_some_eq_none {α : Type} {p : Prop} [Decidable p] {a : α} {rest : Option α} :
    (if p then some a else rest) = none ↔ ¬p ∧ rest = none := by
  by_cases hp : p <;> simp [hp]

variable {r : EventRow} {state : Option ReplayState} {s s' : ReplayState} {line : Nat}
  {detail : String}

@[simp] theorem currentSourceIssue_eq_none {mode : GenerationMode} :
    currentSourceIssue r s mode = none ↔ AtSource r s mode := by
  cases mode with
  | exact =>
    simp only [currentSourceIssue, ite_some_eq_none, not_not, not_lt, and_true]
    exact ⟨fun ⟨hinst, holder, hahead⟩ => ⟨hinst, le_antisymm hahead holder⟩,
      fun ⟨hinst, hgen⟩ => ⟨hinst, hgen.ge, hgen.le⟩⟩
  | increase =>
    simp only [currentSourceIssue, ite_some_eq_none, not_not, not_le, and_true]
    exact ⟨fun ⟨hinst, hgen⟩ => ⟨hinst, hgen⟩, fun ⟨hinst, hgen⟩ => ⟨hinst, hgen⟩⟩

@[simp] theorem bindingProjectionIssue_eq_none {e : Projection} :
    bindingProjectionIssue r e = none ↔ Projects r e := by
  obtain ⟨inst, sourceGeneration, prior, mode, valid, current⟩ := e
  cases mode with
  | exact =>
    simp only [bindingProjectionIssue, ite_some_eq_none, not_or, not_not, not_lt, and_true]
    constructor
    · rintro ⟨⟨hvalid, hcurrent⟩, hinst, holder, hahead, hback, hforth⟩
      exact ⟨hvalid, hcurrent, hinst, le_antisymm hahead holder, le_antisymm hforth hback⟩
    · rintro ⟨hvalid, hcurrent, hinst, hsource, hgen⟩
      exact ⟨⟨hvalid, hcurrent⟩, hinst, hsource.ge, hsource.le, hgen.ge, hgen.le⟩
  | increase =>
    simp only [bindingProjectionIssue, ite_some_eq_none, not_or, not_not, not_lt, not_le, and_true]
    constructor
    · rintro ⟨⟨hvalid, hcurrent⟩, hinst, holder, hahead, hgen⟩
      exact ⟨hvalid, hcurrent, hinst, le_antisymm hahead holder, hgen⟩
    · rintro ⟨hvalid, hcurrent, hinst, hsource, hgen⟩
      exact ⟨⟨hvalid, hcurrent⟩, hinst, hsource.ge, hsource.le, hgen⟩

@[simp] theorem lifecycleIssue_eq_none {required : Lifecycle} :
    lifecycleIssue r required detail = none ↔ r.lifecycleState = required := by
  simp [lifecycleIssue]

/-- The record is a copy of the state. -/
structure Snapshot (r : EventRow) (s : ReplayState) : Prop where
  source : AtSource r s .exact
  lifecycle : r.lifecycleState = s.lifecycleState
  binding : Projects r (s.retained .exact (if s.boundSourceInstance ≠ 0 then 1 else 0)
    (if s.replayState = .bound then 1 else 0))

@[simp] theorem snapshotIssue_eq_none : snapshotIssue r s = none ↔ Snapshot r s := by
  simp only [snapshotIssue, Option.or_eq_none_iff, currentSourceIssue_eq_none,
    bindingProjectionIssue_eq_none]
  constructor
  · rintro ⟨⟨hsource, hlifecycle⟩, hbinding⟩
    refine ⟨hsource, ?_, hbinding⟩
    simpa using hlifecycle
  · rintro ⟨hsource, hlifecycle, hbinding⟩
    exact ⟨⟨hsource, by simp [hlifecycle]⟩, hbinding⟩

/-! ## Transitions -/

namespace Transition

inductive Kind : Transition → Prop
  | reject (issue : Issue) : Kind (reject issue)
  | accept (s : ReplayState) : Kind (accept s)
  | stale (detail : String) : Kind (stale detail)

variable {s : ReplayState} {detail : String} {issue : Option Issue} {t : Transition}

theorem orElse_kind (h : Kind t) : Kind (orElse issue t) := by
  cases issue with
  | none => exact h
  | some issue => exact .reject issue

@[simp] theorem reject_ne_accept {issue : Issue} : reject issue ≠ accept s := by
  intro h
  cases h

@[simp] theorem reject_ne_stale {issue : Issue} : reject issue ≠ stale detail := by
  intro h
  cases congrArg Transition.expectedRejection h

@[simp] theorem stale_ne_accept : stale detail ≠ accept s := by
  intro h
  cases h

@[simp] theorem accept_ne_stale : accept s ≠ stale detail := by
  intro h
  cases h

@[simp] theorem accept_inj : accept s = accept s' ↔ s = s' := by
  simp [accept]

@[simp] theorem orElse_eq_accept : orElse issue t = accept s ↔ issue = none ∧ t = accept s := by
  cases issue with
  | none | some issue => simp [orElse]

@[simp] theorem orElse_eq_stale :
    orElse issue t = stale detail ↔ issue = none ∧ t = stale detail := by
  cases issue with
  | none | some issue => simp [orElse]

end Transition

open Transition

theorem transitionForEvent_kind (r : EventRow) (state : Option ReplayState) :
    Kind (transitionForEvent r state) := by
  cases state with
  | none =>
    show Kind (initialTransition r)
    unfold initialTransition
    repeat' split
    all_goals constructor
  | some s =>
    unfold transitionForEvent
    simp only
    split
    · unfold boundTransition snapshotThen updateTransition exitTransition
      split <;> exact orElse_kind (by constructor)
    · unfold discoveredTransition snapshotThen bindTransition
      simp only
      repeat' split
      all_goals first | exact orElse_kind (by constructor) | constructor
    · unfold exitedTransition snapshotThen rediscoverTransition
      simp only
      repeat' split
      all_goals first | exact orElse_kind (by constructor) | constructor

inductive Accepts : Option ReplayState → EventRow → ReplayState → Prop
  | discover {r : EventRow} (event : r.event = .discover) (lifecycle : r.lifecycleState = .active)
      (generation : u64 r.sourceGeneration = target.initialSourceGeneration)
      (valid : r.bindingValid = 0) (current : r.bindingCurrent = 0) :
      Accepts none r (.discover r)
  | bind {r : EventRow} {s : ReplayState} (state : s.replayState = .discovered)
      (unbound : s.boundSourceInstance = 0) (event : r.event = .bind)
      (source : AtSource r s .exact) (lifecycle : r.lifecycleState = .active)
      (binding : Projects r s.fresh) : Accepts (some s) r (s.bind r)
  | rebind {r : EventRow} {s : ReplayState} (state : s.replayState = .discovered)
      (retained : s.boundSourceInstance ≠ 0) (event : r.event = .rebind)
      (source : AtSource r s .exact) (lifecycle : r.lifecycleState = .active)
      (binding : Projects r s.fresh) : Accepts (some s) r (s.bind r)
  | observe {r : EventRow} {s : ReplayState} (state : s.replayState = .bound)
      (event : r.event = .observe) (snapshot : Snapshot r s) : Accepts (some s) r s
  | update {r : EventRow} {s : ReplayState} (state : s.replayState = .bound)
      (event : r.event = .update) (source : AtSource r s .increase)
      (lifecycle : r.lifecycleState = .active)
      (binding : Projects r (s.retained .exact 1 0)) : Accepts (some s) r (s.update r)
  | exit {r : EventRow} {s : ReplayState} (state : s.replayState = .bound)
      (event : r.event = .exit) (source : AtSource r s .increase)
      (lifecycle : r.lifecycleState = .exited)
      (binding : Projects r (s.retained .increase 1 0)) : Accepts (some s) r (s.exit r)
  | rediscover {r : EventRow} {s : ReplayState} (state : s.replayState = .exited)
      (event : r.event = .discover) (fresh : u64 r.sourceInstance ∉ s.seenSourceInstances)
      (generation : u64 r.sourceGeneration = target.initialSourceGeneration)
      (lifecycle : r.lifecycleState = .active)
      (binding : Projects r (s.retained .exact 1 0)) : Accepts (some s) r (s.rediscover r)

/-- The rejections that a trace has to claim. -/
inductive StaleIn : ReplayState → EventRow → Prop
  | retained {s : ReplayState} {r : EventRow} (state : s.replayState = .discovered)
      (retained : s.boundSourceInstance ≠ 0) (event : r.event = .observe)
      (snapshot : Snapshot r s) : StaleIn s r
  | exited {s : ReplayState} {r : EventRow} (state : s.replayState = .exited)
      (event : r.event = .observe ∨ r.event = .update ∨ r.event = .bind)
      (snapshot : Snapshot r s) : StaleIn s r

theorem initialTransition_eq_accept : initialTransition r = accept s' ↔ Accepts none r s' := by
  simp only [initialTransition, ite_eq_iff, reject_ne_accept, and_false, false_or, ne_eq, not_not,
    not_or, accept_inj]
  constructor
  · rintro ⟨hevent, hlifecycle, hgen, ⟨hvalid, hcurrent⟩, rfl⟩
    exact .discover hevent hlifecycle hgen hvalid hcurrent
  · intro h
    cases h with
    | discover event lifecycle generation valid current =>
      simp [event, lifecycle, generation, valid, current]

theorem boundTransition_eq_accept (hs : s.replayState = .bound) :
    boundTransition r s = accept s' ↔ Accepts (some s) r s' := by
  constructor
  · intro h
    unfold boundTransition snapshotThen updateTransition exitTransition at h
    split at h <;> simp at h
    · rename_i hevent
      obtain ⟨hsnapshot, rfl⟩ := h
      exact .observe hs hevent hsnapshot
    · rename_i hevent
      obtain ⟨⟨⟨hsource, hlifecycle⟩, hbinding⟩, rfl⟩ := h
      exact .update hs hevent hsource hlifecycle hbinding
    · rename_i hevent
      obtain ⟨⟨⟨hsource, hlifecycle⟩, hbinding⟩, rfl⟩ := h
      exact .exit hs hevent hsource hlifecycle hbinding
  · intro h
    cases h with
    | bind state | rebind state | rediscover state => simp [hs] at state
    | observe _ event snapshot =>
      simp [boundTransition, event, snapshotThen, snapshot]
    | update _ event source lifecycle binding =>
      simp [boundTransition, event, updateTransition, source, lifecycle, binding]
    | exit _ event source lifecycle binding =>
      simp [boundTransition, event, exitTransition, source, lifecycle, binding]

theorem bindTransition_eq_accept :
    bindTransition detail r s = accept s' ↔
      (AtSource r s .exact ∧ r.lifecycleState = .active ∧ Projects r s.fresh) ∧ s.bind r = s' := by
  simp [bindTransition, and_assoc]

theorem discoveredTransition_eq_accept (hs : s.replayState = .discovered) :
    discoveredTransition r s = accept s' ↔ Accepts (some s) r s' := by
  constructor
  · intro h
    unfold discoveredTransition snapshotThen at h
    by_cases hbound : s.boundSourceInstance = 0
    · split at h <;> simp [hbound, bindTransition_eq_accept] at h
      rename_i hevent
      obtain ⟨⟨hsource, hlifecycle, hbinding⟩, rfl⟩ := h
      exact .bind hs hbound hevent hsource hlifecycle hbinding
    · split at h <;> simp [hbound, bindTransition_eq_accept] at h
      rename_i hevent
      obtain ⟨⟨hsource, hlifecycle, hbinding⟩, rfl⟩ := h
      exact .rebind hs hbound hevent hsource hlifecycle hbinding
  · intro h
    cases h with
    | bind _ link event source lifecycle binding | rebind _ link event source lifecycle binding =>
      simp [discoveredTransition, event, link, bindTransition_eq_accept, source, lifecycle, binding]
    | observe state | update state | exit state | rediscover state => simp [hs] at state

theorem exitedTransition_eq_accept (hs : s.replayState = .exited) :
    exitedTransition r s = accept s' ↔ Accepts (some s) r s' := by
  constructor
  · intro h
    unfold exitedTransition snapshotThen rediscoverTransition at h
    split at h <;> simp only [orElse_eq_accept, stale_ne_accept, reject_ne_accept, and_false] at h
    rename_i hevent
    split at h
    · simp at h
    rename_i hfresh
    split at h
    · simp at h
    rename_i hgen
    simp at h
    obtain ⟨⟨hlifecycle, hbinding⟩, rfl⟩ := h
    exact .rediscover hs hevent (by simpa using hfresh) (not_ne_iff.mp hgen) hlifecycle hbinding
  · intro h
    cases h with
    | bind state | rebind state | observe state | update state | exit state => simp [hs] at state
    | rediscover _ event fresh generation lifecycle binding =>
      simp [exitedTransition, event, rediscoverTransition, fresh, generation, lifecycle, binding]

theorem transitionForEvent_eq_accept :
    transitionForEvent r state = accept s' ↔ Accepts state r s' := by
  cases state with
  | none => exact initialTransition_eq_accept
  | some s =>
    cases hs : s.replayState with
    | bound => simpa [transitionForEvent, hs] using boundTransition_eq_accept hs
    | discovered => simpa [transitionForEvent, hs] using discoveredTransition_eq_accept hs
    | exited => simpa [transitionForEvent, hs] using exitedTransition_eq_accept hs

theorem transitionForEvent_eq_stale (h : transitionForEvent r state = stale detail) :
    ∃ s, state = some s ∧ StaleIn s r := by
  cases state with
  | none =>
    unfold transitionForEvent initialTransition at h
    simp only at h
    repeat' split at h
    all_goals simp at h
  | some s =>
    refine ⟨s, rfl, ?_⟩
    cases hs : s.replayState with
    | bound =>
      simp only [transitionForEvent, hs, boundTransition, snapshotThen, updateTransition,
        exitTransition] at h
      split at h <;> simp at h
    | discovered =>
      simp only [transitionForEvent, hs, discoveredTransition, snapshotThen, bindTransition] at h
      by_cases hbound : s.boundSourceInstance = 0
      · split at h <;> simp [hbound] at h
      · split at h <;> simp [hbound] at h
        rename_i hevent
        exact .retained hs hbound hevent h.1
    | exited =>
      simp only [transitionForEvent, hs, exitedTransition, snapshotThen, rediscoverTransition] at h
      repeat' split at h
      all_goals simp at h
      all_goals rename_i hevent
      all_goals exact .exited hs (by simp [hevent]) h.1

theorem StaleIn.transition (h : StaleIn s r) :
    ∃ detail, transitionForEvent r (some s) = stale detail := by
  cases h with
  | retained state retained event snapshot =>
    refine ⟨"retained binding is not current after update or rediscovery", ?_⟩
    simp [transitionForEvent, state, discoveredTransition, event, retained, snapshotThen, snapshot]
  | exited state event snapshot =>
    refine ⟨"event targets an exited source with a retained old binding", ?_⟩
    rcases event with event | event | event <;>
      simp [transitionForEvent, state, exitedTransition, event, snapshotThen, snapshot]

/-! ## The loop body -/

/-- The record has no native issue, and the instances of the trace. -/
structure Sane (state : Option ReplayState) (r : EventRow) : Prop where
  native : nativeRecordIssue r state = none
  instances : instanceIssue r state = none

theorem semanticStep_reject (line : Nat) {issue : Issue}
    (h : transitionForEvent r state = reject issue) :
    ∃ f, semanticStep state line r = .ok (.failed f) := by
  unfold semanticStep judgeEvent
  simp only [h]
  repeat' split
  all_goals exact ⟨_, rfl⟩

theorem semanticStep_judge {t : Transition} (h : transitionForEvent r state = t)
    (hissue : t.issueReason = none) {o : Step} (ho : ∀ f, o ≠ .failed f) :
    semanticStep state line r = .ok o ↔
      Sane state r ∧ misclaimed r t = false ∧ settleEvent r line t = .ok o := by
  have hinit : ¬(state.isNone ∧ r.event ≠ .discover) := by
    rintro ⟨hnone, hevent⟩
    rw [← h, Option.isNone_iff_eq_none.mp hnone] at hissue
    simp [transitionForEvent, initialTransition, hevent, reject] at hissue
  have hne : ∀ f, (Except.ok (.failed f) : Except PyError Step) ≠ .ok o := by
    intro f hf
    exact ho f (Except.ok.inj hf).symm
  unfold semanticStep
  simp only [h, if_neg hinit]
  cases hnative : nativeRecordIssue r state with
  | some issue =>
    exact ⟨fun hf => absurd hf (hne _), fun ⟨hsane, _⟩ => by simp [hsane.native] at hnative⟩
  | none =>
    simp only [judgeEvent, hissue, Option.filter_none]
    cases hmis : misclaimed r t with
    | true => exact ⟨fun hf => absurd hf (hne _), fun ⟨_, hfalse, _⟩ => by cases hfalse⟩
    | false =>
      cases hinst : instanceIssue r state with
      | some issue =>
        exact ⟨fun hf => absurd hf (hne _), fun ⟨hsane, _⟩ => by simp [hsane.instances] at hinst⟩
      | none => exact ⟨fun hs => ⟨⟨hnative, hinst⟩, rfl, hs⟩, fun hs => hs.2.2⟩

theorem semanticStep_accepted :
    semanticStep state line r = .ok (.accepted s') ↔
      Sane state r ∧ (r.claimedOutcome = .accepted ∧ r.claimedReason = .none) ∧
        Accepts state r s' := by
  rw [← transitionForEvent_eq_accept]
  have hkind := transitionForEvent_kind r state
  generalize ht : transitionForEvent r state = t at hkind
  cases hkind with
  | reject issue =>
    obtain ⟨f, hf⟩ := semanticStep_reject line ht
    simp [hf]
  | accept s =>
    rw [semanticStep_judge ht rfl (by simp)]
    by_cases hclaim : r.claimedOutcome = .accepted ∧ r.claimedReason = .none
    · simp [misclaimed, settleEvent, accept, hclaim]
    · have hclaim' : r.claimedOutcome ≠ .accepted ∨ r.claimedReason ≠ .none := by
        tauto
      simp [misclaimed, settleEvent, accept, hclaim, hclaim']
  | stale detail =>
    rw [semanticStep_judge ht rfl (by simp)]
    simp [settleEvent, stale, accept]

theorem semanticStep_rejected :
    semanticStep state line r = .ok .rejected ↔
      Sane state r ∧ (r.claimedOutcome = .rejected ∧ r.claimedReason = .stale) ∧
        ∃ s, state = some s ∧ StaleIn s r := by
  constructor
  · intro h
    have hkind := transitionForEvent_kind r state
    generalize ht : transitionForEvent r state = t at hkind
    cases hkind with
    | reject issue =>
      obtain ⟨f, hf⟩ := semanticStep_reject line ht
      simp [hf] at h
    | accept s =>
      rw [semanticStep_judge ht rfl (by simp)] at h
      obtain ⟨-, -, hsettle⟩ := h
      simp only [settleEvent, accept, Bool.false_eq_true, if_false] at hsettle
      split at hsettle <;> cases hsettle
    | stale detail =>
      rw [semanticStep_judge ht rfl (by simp)] at h
      obtain ⟨hsane, hclaim, -⟩ := h
      simp [misclaimed, stale] at hclaim
      exact ⟨hsane, hclaim, transitionForEvent_eq_stale ht⟩
  · rintro ⟨hsane, hclaim, s, rfl, hstale⟩
    obtain ⟨detail, ht⟩ := hstale.transition
    rw [semanticStep_judge ht rfl (by simp)]
    exact ⟨hsane, by simp [misclaimed, hclaim, stale], rfl⟩

end AiosKernel.Replay
