/-
# `AiosKernel.Replay.Lifetime` — what holds along a replay

The loop of the semantic phase as a run of single moves, and the facts that a
move keeps: a replayed state is `Sound`, its mode follows the automaton of
`AiosKernel.Replay.Language`, and every event so far had the instances that the
state remembers.
-/
import AiosKernel.Replay.Steps
import AiosKernel.Replay.Language

namespace AiosKernel.Replay

open List

/-! ## Moves -/

/-- What the loop has after the given events, if it did not stop before. -/
def progressAfter (events : List (Nat × EventRow)) : Option Progress :=
  match replayEvents .start events with
  | .ok (.inr p) => some p
  | _ => none

/-- What one event does to the progress of the loop. -/
inductive Progress.Move (p : Progress) (r : EventRow) : Progress → Prop
  | accepted {s' : ReplayState} (sane : Sane p.state r) (outcome : r.claimedOutcome = .accepted)
      (reason : r.claimedReason = .none) (accepts : Accepts p.state r s') :
      Move p r ⟨some s', p.acceptedCount + 1, p.rejectedCount⟩
  | rejected {s : ReplayState} (sane : Sane p.state r) (outcome : r.claimedOutcome = .rejected)
      (reason : r.claimedReason = .stale) (state : p.state = some s) (stale : StaleIn s r) :
      Move p r { p with rejectedCount := p.rejectedCount + 1 }

variable {r : EventRow} {events : List (Nat × EventRow)} {line : Nat} {p q : Progress}
  {state : Option ReplayState} {s' s : ReplayState}

theorem replayEvents_cons {rest : List (Nat × EventRow)} :
    replayEvents p ((line, r) :: rest) = .ok (.inr q) ↔
      ∃ m, p.Move r m ∧ replayEvents m rest = .ok (.inr q) := by
  rw [replayEvents]
  constructor
  · intro h
    cases hstep : semanticStep p.state line r with
    | error e => simp [hstep] at h
    | ok step =>
      cases step with
      | failed f => simp [hstep] at h
      | rejected =>
        obtain ⟨hsane, ⟨houtcome, hreason⟩, s, hs, hstale⟩ := semanticStep_rejected.mp hstep
        exact ⟨_, .rejected hsane houtcome hreason hs hstale, by simpa [hstep] using h⟩
      | accepted s' =>
        obtain ⟨hsane, ⟨houtcome, hreason⟩, haccepts⟩ := semanticStep_accepted.mp hstep
        exact ⟨_, .accepted hsane houtcome hreason haccepts, by simpa [hstep] using h⟩
  · rintro ⟨m, hmove, h⟩
    cases hmove with
    | accepted sane outcome reason accepts =>
      have hstep : semanticStep p.state line r = .ok (.accepted _) :=
        semanticStep_accepted.mpr ⟨sane, ⟨outcome, reason⟩, accepts⟩
      simpa [hstep] using h
    | rejected sane outcome reason state stale =>
      have hstep : semanticStep p.state line r = .ok .rejected :=
        semanticStep_rejected.mpr ⟨sane, ⟨outcome, reason⟩, _, state, stale⟩
      simpa [hstep] using h

theorem replayEvents_append {a b : List (Nat × EventRow)} :
    replayEvents p (a ++ b) = .ok (.inr q) ↔
      ∃ m, replayEvents p a = .ok (.inr m) ∧ replayEvents m b = .ok (.inr q) := by
  induction a generalizing p with
  | nil => simp [replayEvents]
  | cons e a ih =>
    rw [cons_append, replayEvents_cons]
    constructor
    · rintro ⟨m, hmove, hrest⟩
      obtain ⟨n, ha, hb⟩ := ih.mp hrest
      exact ⟨n, replayEvents_cons.mpr ⟨m, hmove, ha⟩, hb⟩
    · rintro ⟨n, ha, hb⟩
      obtain ⟨m, hmove, hrest⟩ := replayEvents_cons.mp ha
      exact ⟨m, hmove, ih.mpr ⟨n, hrest, hb⟩⟩

theorem progressAfter_eq_some :
    progressAfter events = some p ↔ replayEvents .start events = .ok (.inr p) := by
  unfold progressAfter
  split
  · rename_i q hq
    simp [hq]
  · rename_i hne
    simp only [reduceCtorEq, false_iff]
    exact hne p

theorem progressAfter_snoc :
    progressAfter (events ++ [(line, r)]) = some q ↔
      ∃ p, progressAfter events = some p ∧ p.Move r q := by
  simp only [progressAfter_eq_some, replayEvents_append]
  constructor
  · rintro ⟨p, hp, hlast⟩
    obtain ⟨m, hmove, hm⟩ := replayEvents_cons.mp hlast
    cases hm
    exact ⟨p, hp, hmove⟩
  · rintro ⟨p, hp, hmove⟩
    exact ⟨p, hp, replayEvents_cons.mpr ⟨q, hmove, rfl⟩⟩

theorem progressAfter_of_append {a b : List (Nat × EventRow)} (h : progressAfter (a ++ b) = some q) :
    ∃ p, progressAfter a = some p := by
  obtain ⟨p, hp, -⟩ := replayEvents_append.mp (progressAfter_eq_some.mp h)
  exact ⟨p, progressAfter_eq_some.mpr hp⟩

/-! ## Sound states -/

/-- What holds of every state of a replay. -/
structure ReplayState.Sound (s : ReplayState) : Prop where
  sourceInstance : s.sourceInstance ≠ 0
  seen : s.sourceInstance ∈ s.seenSourceInstances
  bound : s.replayState = .bound →
    s.boundSourceInstance = s.sourceInstance ∧ s.boundSourceGeneration = s.sourceGeneration
  active : s.replayState ≠ .exited → s.lifecycleState = .active
  exited : s.replayState = .exited → s.lifecycleState = .exited ∧ s.boundSourceInstance ≠ 0

def modeOf : Option ReplayState → Mode
  | none => .start
  | some s =>
    match s.replayState with
    | .bound => .bound
    | .exited => .exited
    | .discovered => if s.boundSourceInstance = 0 then .first else .stale

theorem Sane.sourceInstance (h : Sane state r) : u64 r.sourceInstance ≠ 0 := by
  have hnative := h.native
  simp only [nativeRecordIssue, firstIssue, Option.map_eq_none_iff, find?_eq_none] at hnative
  have := hnative (decide (u64 r.sourceInstance = 0), .inst, "source_instance must be non-zero")
    (by simp)
  simpa using this

theorem Sane.host (h : Sane (some s) r) :
    u64 r.hostInstance = s.hostInstance ∧ u64 r.producerInstance = s.producerInstance := by
  have hinstances := h.instances
  simp only [instanceIssue, ite_some_eq_none, not_not, and_true] at hinstances
  exact hinstances

theorem Accepts.sound (h : Accepts state r s') (hsane : Sane state r)
    (hstate : ∀ s, state = some s → s.Sound) : s'.Sound := by
  cases h with
  | discover =>
    exact ⟨hsane.sourceInstance, mem_singleton_self _, by simp [ReplayState.discover],
      by simp [ReplayState.discover], by simp [ReplayState.discover]⟩
  | bind state unbound event source lifecycle binding
  | rebind state retained event source lifecycle binding =>
    have hs := hstate _ rfl
    exact ⟨hs.sourceInstance, hs.seen, fun _ => ⟨rfl, rfl⟩,
      fun _ => hs.active (by simp [state]), by simp [ReplayState.bind]⟩
  | observe => exact hstate _ rfl
  | update state event source lifecycle binding =>
    have hs := hstate _ rfl
    exact ⟨hs.sourceInstance, hs.seen, by simp [ReplayState.update],
      fun _ => hs.active (by simp [state]), by simp [ReplayState.update]⟩
  | exit state event source lifecycle binding =>
    have hs := hstate _ rfl
    exact ⟨hs.sourceInstance, hs.seen, by simp [ReplayState.exit], by simp [ReplayState.exit],
      fun _ => ⟨rfl, (hs.bound state).1 ▸ hs.sourceInstance⟩⟩
  | rediscover state event fresh generation lifecycle binding =>
    exact ⟨hsane.sourceInstance, mem_cons_self, by simp [ReplayState.rediscover],
      fun _ => rfl, by simp [ReplayState.rediscover]⟩

theorem Accepts.mode (h : Accepts state r s') (hstate : ∀ s, state = some s → s.Sound) :
    (modeOf state).step r.event = some (modeOf (some s')) := by
  cases h with
  | discover event => simp [modeOf, ReplayState.discover, event, Mode.step]
  | bind state link event | rebind state link event =>
    simp [modeOf, ReplayState.bind, event, state, link, Mode.step]
  | observe state event => simp [modeOf, event, state, Mode.step]
  | update state event =>
    have hs := hstate _ rfl
    simp [modeOf, ReplayState.update, event, state, Mode.step, (hs.bound state).1,
      hs.sourceInstance]
  | exit state event => simp [modeOf, ReplayState.exit, event, state, Mode.step]
  | rediscover state event =>
    have hs := hstate _ rfl
    simp [modeOf, ReplayState.rediscover, event, state, Mode.step, (hs.exited state).2]

/-! ## The events so far -/

/-- The events of a trace that claim to be accepted. -/
def acceptedWord (events : List (Nat × EventRow)) : List EventName :=
  (events.filter fun e => e.2.claimedOutcome = .accepted).map fun e => e.2.event

/-- What a state remembers of the events so far. -/
structure Along (events : List (Nat × EventRow)) (s : ReplayState) : Prop where
  sound : s.Sound
  instances : ∀ e ∈ events,
    u64 e.2.hostInstance = s.hostInstance ∧ u64 e.2.producerInstance = s.producerInstance
  seen : ∀ e ∈ events, u64 e.2.sourceInstance ∈ s.seenSourceInstances

/-- What the loop has gathered is what the events say. -/
structure Replayed (events : List (Nat × EventRow)) (p : Progress) : Prop where
  word : Mode.start.run (acceptedWord events) = some (modeOf p.state)
  accepted : p.acceptedCount = events.countP fun e => e.2.claimedOutcome = .accepted
  rejected : p.rejectedCount = events.countP fun e => e.2.claimedOutcome = .rejected
  started : p.state = none → events = []
  along : ∀ s, p.state = some s → Along events s

theorem acceptedWord_snoc_accepted (h : r.claimedOutcome = .accepted) :
    acceptedWord (events ++ [(line, r)]) = acceptedWord events ++ [r.event] := by
  simp [acceptedWord, h]

theorem Accepts.keeps (h : Accepts (some s) r s') :
    s'.hostInstance = s.hostInstance ∧ s'.producerInstance = s.producerInstance ∧
      s.seenSourceInstances ⊆ s'.seenSourceInstances := by
  cases h with
  | rediscover => exact ⟨rfl, rfl, subset_cons_self _ _⟩
  | bind | rebind | observe | update | exit => exact ⟨rfl, rfl, List.Subset.refl _⟩

theorem Accepts.seen (h : Accepts state r s') (hstate : ∀ s, state = some s → s.Sound) :
    u64 r.sourceInstance ∈ s'.seenSourceInstances := by
  cases h with
  | discover => exact mem_singleton_self _
  | rediscover => exact mem_cons_self
  | bind _ _ _ source | rebind _ _ _ source | update _ _ source | exit _ _ source =>
    exact source.inst ▸ (hstate _ rfl).seen
  | observe _ _ snapshot => exact snapshot.source.inst ▸ (hstate _ rfl).seen

theorem StaleIn.snapshot (h : StaleIn s r) : Snapshot r s := by
  cases h with
  | retained _ _ _ snapshot | exited _ _ snapshot => exact snapshot

theorem Along.rejected (h : Along events s) (hsane : Sane (some s) r) (hstale : StaleIn s r) :
    Along (events ++ [(line, r)]) s := by
  refine ⟨h.sound, forall_mem_append.mpr ⟨h.instances, ?_⟩,
    forall_mem_append.mpr ⟨h.seen, ?_⟩⟩
  · exact forall_mem_singleton.mpr hsane.host
  · exact forall_mem_singleton.mpr (hstale.snapshot.source.inst ▸ h.sound.seen)

theorem Along.accepted (h : Along events s) (hsane : Sane (some s) r)
    (haccepts : Accepts (some s) r s') : Along (events ++ [(line, r)]) s' := by
  have hsound : ∀ s₁, some s = some s₁ → s₁.Sound := by
    rintro s₁ ⟨⟩
    exact h.sound
  obtain ⟨hhost, hproducer, hsub⟩ := haccepts.keeps
  refine ⟨haccepts.sound hsane hsound, ?_, forall_mem_append.mpr ⟨?_, ?_⟩⟩
  · rw [hhost, hproducer]
    exact forall_mem_append.mpr ⟨h.instances, forall_mem_singleton.mpr hsane.host⟩
  · exact fun e he => hsub (h.seen e he)
  · exact forall_mem_singleton.mpr (haccepts.seen hsound)

theorem Along.first (hsane : Sane none r) (haccepts : Accepts none r s') :
    Along [(line, r)] s' := by
  have hsound : s'.Sound := haccepts.sound hsane (by simp)
  have hseen : u64 r.sourceInstance ∈ s'.seenSourceInstances := haccepts.seen (by simp)
  cases haccepts
  refine ⟨hsound, ?_, ?_⟩
  · intro e he
    cases mem_singleton.mp he
    exact ⟨rfl, rfl⟩
  · intro e he
    cases mem_singleton.mp he
    exact hseen

theorem Replayed.move (h : Replayed events p) (hmove : p.Move r q) :
    Replayed (events ++ [(line, r)]) q := by
  cases hmove with
  | @accepted s' sane outcome reason accepts =>
    have hsound : ∀ s, p.state = some s → s.Sound := fun s hs => (h.along s hs).sound
    refine ⟨?_, ?_, ?_, by simp, ?_⟩
    · rw [acceptedWord_snoc_accepted outcome, Mode.run_append, h.word]
      show ((modeOf p.state).step r.event).bind (Mode.run · []) = _
      rw [accepts.mode hsound]
      rfl
    · simp [countP_append, outcome, h.accepted]
    · simp [countP_append, outcome, h.rejected]
    · rintro _ ⟨⟩
      cases hstate : p.state with
      | none =>
        rw [hstate] at sane accepts
        rw [h.started hstate]
        exact Along.first sane accepts
      | some s =>
        rw [hstate] at sane accepts
        exact (h.along s hstate).accepted sane accepts
  | @rejected s sane outcome reason state stale =>
    rw [state] at sane
    refine ⟨?_, ?_, ?_, by simp [state], ?_⟩
    · simpa [acceptedWord, outcome] using h.word
    · simp [countP_append, outcome, h.accepted]
    · simp [countP_append, outcome, h.rejected]
    · intro s₁ hs₁
      cases state.symm.trans hs₁
      exact (h.along s state).rejected sane stale

theorem replayed_of_progressAfter (h : progressAfter events = some p) : Replayed events p := by
  -- induction on the events, the last one first
  induction events using List.reverseRecOn generalizing p with
  | nil =>
    cases h
    exact ⟨rfl, rfl, rfl, fun _ => rfl, by simp [Progress.start]⟩
  | append_singleton events e ih =>
    obtain ⟨m, hm, hmove⟩ := progressAfter_snoc.mp h
    exact (ih hm).move hmove

/-! ## Generations -/

/-- The binding generation of the replay, zero before the first event. -/
def Progress.bindingGeneration (p : Progress) : Nat := (p.state.map (·.bindingGeneration)).getD 0

/-- The source generation of the replay, zero before the first event. -/
def Progress.sourceGeneration (p : Progress) : Nat := (p.state.map (·.sourceGeneration)).getD 0

/-- An accepted `bind`, `rebind` or `exit`. -/
def EventRow.AdvancesBinding (r : EventRow) : Prop :=
  r.claimedOutcome = .accepted ∧ (r.event = .bind ∨ r.event = .rebind ∨ r.event = .exit)

/-- An accepted `update` or `exit`. -/
def EventRow.AdvancesSource (r : EventRow) : Prop :=
  r.claimedOutcome = .accepted ∧ (r.event = .update ∨ r.event = .exit)

/-- An accepted `discover`. -/
def EventRow.StartsSource (r : EventRow) : Prop :=
  r.claimedOutcome = .accepted ∧ r.event = .discover

/-- What an event does to the two generations. -/
structure MovesGenerations (p : Progress) (r : EventRow) (q : Progress) : Prop where
  bindingAdvances : r.AdvancesBinding → p.bindingGeneration < q.bindingGeneration
  bindingKept : ¬r.AdvancesBinding → q.bindingGeneration = p.bindingGeneration
  sourceAdvances : r.AdvancesSource → p.sourceGeneration < q.sourceGeneration
  sourceStarts : r.StartsSource → q.sourceGeneration = 1
  sourceKept : ¬r.AdvancesSource → ¬r.StartsSource → q.sourceGeneration = p.sourceGeneration

theorem MovesGenerations.of_accepted (outcome : r.claimedOutcome = .accepted)
    (hbinding : match r.event with
      | .bind | .rebind | .exit => p.bindingGeneration < q.bindingGeneration
      | _ => q.bindingGeneration = p.bindingGeneration)
    (hsource : match r.event with
      | .update | .exit => p.sourceGeneration < q.sourceGeneration
      | .discover => q.sourceGeneration = 1
      | _ => q.sourceGeneration = p.sourceGeneration) : MovesGenerations p r q := by
  cases hevent : r.event <;> simp only [hevent] at hbinding hsource <;> constructor <;>
    simp [EventRow.AdvancesBinding, EventRow.AdvancesSource, EventRow.StartsSource, outcome, hevent,
      hbinding, hsource]

theorem Progress.Move.generations (h : p.Move r q) : MovesGenerations p r q := by
  cases h with
  | @accepted s' sane outcome reason accepts =>
    obtain ⟨state, accepted, rejected⟩ := p
    cases accepts with
    | discover event lifecycle generation valid current
    | rediscover state event fresh generation lifecycle binding =>
      refine .of_accepted outcome ?_ ?_ <;> simp only [event]
      · rfl
      · exact generation
    | bind state unbound event source lifecycle binding
    | rebind state retained event source lifecycle binding =>
      refine .of_accepted outcome ?_ ?_ <;> simp only [event]
      · exact binding.generation
      · rfl
    | observe state event snapshot =>
      refine .of_accepted outcome ?_ ?_ <;> simp only [event]
      · rfl
      · rfl
    | update state event source lifecycle binding =>
      refine .of_accepted outcome ?_ ?_ <;> simp only [event]
      · rfl
      · exact source.generation
    | exit state event source lifecycle binding =>
      refine .of_accepted outcome ?_ ?_ <;> simp only [event]
      · exact binding.generation
      · exact source.generation
  | rejected sane outcome reason state stale =>
    constructor <;> simp [EventRow.AdvancesBinding, EventRow.AdvancesSource,
      EventRow.StartsSource, outcome, Progress.bindingGeneration, Progress.sourceGeneration]

theorem Progress.Move.fresh (h : Replayed events p) (hmove : p.Move r q) (hstarts : r.StartsSource) :
     ∀ e ∈ events, u64 e.2.sourceInstance ≠ u64 r.sourceInstance := by
  cases hmove with
  | rejected sane outcome => simp [EventRow.StartsSource, outcome] at hstarts
  | accepted sane outcome reason accepts =>
    cases hstate : p.state with
    | none => simp [h.started hstate]
    | some s =>
      rw [hstate] at accepts
      intro e he heq
      cases accepts with
      | rediscover state event fresh => exact fresh (heq ▸ (h.along s hstate).seen e he)
      | bind _ _ event | rebind _ _ event => simp [EventRow.StartsSource, event] at hstarts
      | observe _ event | update _ event | exit _ event =>
        simp [EventRow.StartsSource, event] at hstarts

end AiosKernel.Replay
