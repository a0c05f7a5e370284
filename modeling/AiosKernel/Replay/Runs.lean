/-
# `AiosKernel.Replay.Runs` — what the verifier's verdict says about a trace

The two results about `verify_trace_bytes`: the accepted events of a passing
trace spell a lifecycle, and every lifecycle that fits into a trace is spelt by
one; and along a passing trace the generations, instances and states move as a
binding's should.  The first has two directions: `Lifetime` follows a replay
through the automaton, `Complete` builds the rows for a word of it.
-/
import AiosKernel.Replay.Complete

namespace AiosKernel.Replay

open Py

def TraceOf (interp : Interpreter) (raw : List UInt8) (tr : Trace) : Prop :=
  ∃ dicts last, Reads (recordsOf interp raw) tr dicts last

theorem exists_trace {interp : Interpreter} {raw : List UInt8} {v : Verdict}
    (hv : verifyTraceBytes interp raw = .ok v) (hpassed : v.passed = true) :
    ∃ tr p s, TraceOf interp raw tr ∧ progressAfter tr.events = some p ∧ p.state = some s ∧
      TerminalMatches tr.terminal s p := by
  obtain ⟨-, tr, dicts, last, hreads, p, s, hp, hs, ht⟩ := passes_iff.mp ⟨v, hv, hpassed⟩
  exact ⟨tr, p, s, ⟨dicts, last, hreads⟩, hp, hs, ht⟩

variable {r : EventRow} {p : Progress} {s : ReplayState}

variable {events before after : List (Nat × EventRow)} {line : Nat}

/-- The progress before and after an event of a replayed trace. -/
theorem exists_move (hp : progressAfter events = some p)
    (hsplit : events = before ++ (line, r) :: after) :
    ∃ m q, progressAfter before = some m ∧ progressAfter (before ++ [(line, r)]) = some q ∧
      m.Move r q := by
  have hassoc : events = before ++ [(line, r)] ++ after := by simp [hsplit]
  rw [hassoc] at hp
  obtain ⟨q, hq⟩ := progressAfter_of_append hp
  obtain ⟨m, hm, hmove⟩ := progressAfter_snoc.mp hq
  exact ⟨m, q, hm, hq, hmove⟩

/-! ## Lifecycles -/

/-- An event that a trace has to claim as stale, in the state it comes in. -/
def ExpectedStale (before : List (Nat × EventRow)) (r : EventRow) : Prop :=
  ∃ p s, progressAfter before = some p ∧ p.state = some s ∧
    ((s.replayState = .discovered ∧ s.boundSourceInstance ≠ 0 ∧ r.event = .observe) ∨
      (s.replayState = .exited ∧
        (r.event = .observe ∨ r.event = .update ∨ r.event = .bind)))

theorem expectedStale_of_move {m q : Progress} (hm : progressAfter before = some m)
    (hmove : m.Move r q) (hclaim : r.claimedOutcome ≠ .accepted) :
    r.claimedOutcome = .rejected ∧ r.claimedReason = .stale ∧ ExpectedStale before r := by
  cases hmove with
  | accepted sane outcome => exact absurd outcome hclaim
  | @rejected s sane outcome reason state stale =>
    refine ⟨outcome, reason, m, s, hm, state, ?_⟩
    cases stale with
    | retained hstate hretained hevent => exact .inl ⟨hstate, hretained, hevent⟩
    | exited hstate hevent => exact .inr ⟨hstate, hevent⟩

theorem acceptedWord_mem_lifecycle (hp : progressAfter events = some p) (hs : p.state = some s) :
    acceptedWord events ∈ lifecycle.matches' := by
  refine mem_lifecycle.mpr ⟨modeOf p.state, (replayed_of_progressAfter hp).word, ?_⟩
  rw [hs]
  simp only [modeOf]
  split
  · simp
  · simp
  · split <;> simp

theorem exists_passing {w : List EventName} (hw : w ∈ lifecycle.matches') (hlen : w.length ≤ 63) :
    ∃ raw, ∀ interp, ∃ v tr, verifyTraceBytes interp raw = .ok v ∧ v.passed = true ∧
      TraceOf interp raw tr ∧ acceptedWord tr.events = w := by
  obtain ⟨q, hrun, hq⟩ := mem_lifecycle.mp hw
  obtain ⟨events, p, h⟩ := exists_writes hrun (by simp only [MAX_RECORDS]; omega)
  have hword := (replayed_of_progressAfter h.progress).word
  rw [h.word, hrun, Option.some.injEq] at hword
  cases hs : p.state with
  | none =>
    rw [hs] at hword
    exact absurd hword hq
  | some s =>
    have hbuilt := h.built s hs
    have hgen : s.bindingGeneration ≤ U64_MAX := by
      have := hbuilt.bindingGeneration
      simp only [U64_MAX]
      omega
    have hcount : events.length + 1 ≤ MAX_RECORDS := by
      rw [h.length]
      simp only [MAX_RECORDS]
      omega
    have hencodable := encodable_trace (h.length ▸ h.lines) hcount h.encodable h.progress hgen
    refine ⟨encodeTrace (lit "trace") ⟨events, terminalFor (events.length + 1) s p⟩,
      fun interp => ?_⟩
    obtain ⟨v, hv, hpassed⟩ := hencodable.passes interp h.progress hs
      (terminalMatches_terminalFor hbuilt.ofRows _ p)
    exact ⟨v, _, hv, hpassed, ⟨_, _, hencodable.reads interp⟩, h.word⟩

/-- A passing trace spells a lifecycle with its accepted events, and claims every other event as
stale where the replay expects it; and every lifecycle of at most 63 events is spelt by a passing
trace. -/
theorem accepted_words_are_lifecycles :
    (∀ interp raw v, verifyTraceBytes interp raw = .ok v → v.passed = true →
      ∃ tr, TraceOf interp raw tr ∧ acceptedWord tr.events ∈ lifecycle.matches' ∧
        ∀ before line r after, tr.events = before ++ (line, r) :: after →
          r.claimedOutcome ≠ .accepted →
            r.claimedOutcome = .rejected ∧ r.claimedReason = .stale ∧ ExpectedStale before r) ∧
    (∀ w, w ∈ lifecycle.matches' → w.length ≤ 63 →
      ∃ raw, ∀ interp, ∃ v tr, verifyTraceBytes interp raw = .ok v ∧ v.passed = true ∧
        TraceOf interp raw tr ∧ acceptedWord tr.events = w) := by
  refine ⟨fun interp raw v hv hpassed => ?_, fun w hw hlen => exists_passing hw hlen⟩
  obtain ⟨tr, p, s, htrace, hp, hs, -⟩ := exists_trace hv hpassed
  refine ⟨tr, htrace, acceptedWord_mem_lifecycle hp hs, ?_⟩
  intro before line r after hsplit hclaim
  obtain ⟨m, q, hm, -, hmove⟩ := exists_move hp hsplit
  exact expectedStale_of_move hm hmove hclaim

/-- An interpreter with room for one object. -/
def plainInterpreter : Interpreter := ⟨1, by decide, fun _ => true⟩

/-- Discover, bind, exit, rediscover, rebind: there is such a trace, and it spells a lifecycle. -/
theorem accepted_words_are_lifecycles_renewed :
    ∃ raw v tr, verifyTraceBytes plainInterpreter raw = .ok v ∧ v.passed = true ∧
      TraceOf plainInterpreter raw tr ∧ acceptedWord tr.events ∈ lifecycle.matches' := by
  have hw : [EventName.discover, .bind, .exit, .discover, .rebind] ∈ lifecycle.matches' :=
    mem_lifecycle.mpr ⟨.bound, by decide, by decide⟩
  obtain ⟨raw, hraw⟩ := accepted_words_are_lifecycles.2 _ hw (by decide)
  obtain ⟨v, -, hv, hpassed, -, -⟩ := hraw plainInterpreter
  obtain ⟨tr, htrace, hword, -⟩ := accepted_words_are_lifecycles.1 plainInterpreter raw v hv hpassed
  exact ⟨raw, v, tr, hv, hpassed, htrace, hword⟩

/-! ## Generations, instances and states -/

/-- What a bound or exited state shows. -/
structure StateShown (s : ReplayState) : Prop where
  bound : s.replayState = .bound → s.boundSourceInstance = s.sourceInstance ∧
    s.boundSourceGeneration = s.sourceGeneration ∧ s.lifecycleState = .active
  exited : s.replayState = .exited → s.lifecycleState = .exited

/-- What an event does in a trace with the given events before it. -/
structure EventSound (before : List (Nat × EventRow)) (line : Nat) (r : EventRow) : Prop where
  progress : ∃ p q s, progressAfter before = some p ∧
    progressAfter (before ++ [(line, r)]) = some q ∧ q.state = some s ∧
    MovesGenerations p r q ∧ StateShown s
  fresh : r.StartsSource → ∀ e ∈ before, u64 e.2.sourceInstance ≠ u64 r.sourceInstance

/-- The terminal is what the replay of the whole trace found. -/
structure TerminalSound (tr : Trace) : Prop where
  replay : ∃ p s, progressAfter tr.events = some p ∧ p.state = some s ∧
    tr.terminal.acceptedCount = p.acceptedCount ∧ tr.terminal.rejectedCount = p.rejectedCount ∧
    tr.terminal.finalState = s.replayState ∧
    tr.terminal.finalBindingGeneration = dec s.bindingGeneration
  accepted : tr.terminal.acceptedCount =
    tr.events.countP fun e => e.2.claimedOutcome = .accepted
  rejected : tr.terminal.rejectedCount =
    tr.events.countP fun e => e.2.claimedOutcome = .rejected

/-- The events and the terminal have the instances of the first event. -/
def SameInstances (tr : Trace) : Prop :=
  ∃ first rest, tr.events = first :: rest ∧
    (∀ e ∈ tr.events, u64 e.2.hostInstance = u64 first.2.hostInstance ∧
      u64 e.2.producerInstance = u64 first.2.producerInstance) ∧
    u64 tr.terminal.hostInstance = u64 first.2.hostInstance ∧
    u64 tr.terminal.producerInstance = u64 first.2.producerInstance

theorem ReplayState.Sound.shown (h : s.Sound) : StateShown s where
  bound hs := ⟨(h.bound hs).1, (h.bound hs).2, h.active (by simp [hs])⟩
  exited hs := (h.exited hs).1

theorem Progress.Move.state {p q : Progress} (h : p.Move r q) : ∃ s, q.state = some s := by
  cases h with
  | accepted => exact ⟨_, rfl⟩
  | rejected _ _ _ state => exact ⟨_, state⟩

theorem eventSound_of_progress (hp : progressAfter events = some p)
    (hsplit : events = before ++ (line, r) :: after) : EventSound before line r := by
  obtain ⟨m, q, hm, hq, hmove⟩ := exists_move hp hsplit
  obtain ⟨s, hs⟩ := hmove.state
  have hsound := ((replayed_of_progressAfter hq).along s hs).sound
  exact ⟨⟨m, q, s, hm, hq, hs, hmove.generations, hsound.shown⟩,
    fun hstarts => hmove.fresh (replayed_of_progressAfter hm) hstarts⟩

theorem sameInstances_of_progress {tr : Trace} (hp : progressAfter tr.events = some p)
    (hs : p.state = some s) (ht : TerminalMatches tr.terminal s p) : SameInstances tr := by
  have halong := (replayed_of_progressAfter hp).along s hs
  cases hevents : tr.events with
  | nil =>
    rw [hevents] at hp
    cases hp
    cases hs
  | cons first rest =>
    obtain ⟨hhost, hproducer⟩ := halong.instances first (by simp [hevents])
    refine ⟨first, rest, hevents, fun e he => ?_, ht.hostInstance.trans hhost.symm,
      ht.producerInstance.trans hproducer.symm⟩
    obtain ⟨hhost', hproducer'⟩ := halong.instances e he
    exact ⟨hhost'.trans hhost.symm, hproducer'.trans hproducer.symm⟩

/-- Along a passing trace, an accepted `bind`, `rebind` or `exit` and nothing else advances the
binding generation; an accepted `update` or `exit` advances the source generation, an accepted
`discover` and nothing else restarts it at 1, with a source that occurred nowhere before; bound
and exited states show what they should; every record has the first event's instances; and the
terminal is what the replay found. -/
theorem replay_generations_sound {interp : Interpreter} {raw : List UInt8} {v : Verdict}
    (hv : verifyTraceBytes interp raw = .ok v) (hpassed : v.passed = true) :
    ∃ tr, TraceOf interp raw tr ∧
      (∀ before line r after, tr.events = before ++ (line, r) :: after → EventSound before line r) ∧
      SameInstances tr ∧ TerminalSound tr := by
  obtain ⟨tr, p, s, htrace, hp, hs, ht⟩ := exists_trace hv hpassed
  have hreplayed := replayed_of_progressAfter hp
  refine ⟨tr, htrace, fun before line r after hsplit => eventSound_of_progress hp hsplit,
    sameInstances_of_progress hp hs ht, ⟨p, s, hp, hs, ht.acceptedCount, ht.rejectedCount,
      ht.finalState, ht.finalBindingGeneration⟩, ?_, ?_⟩
  · rw [ht.acceptedCount, hreplayed.accepted]
  · rw [ht.rejectedCount, hreplayed.rejected]

/-! ## A trace with stale events -/

/-- A source that is discovered, bound and exits, and then a `bind` and an `update` of the exited
source, claimed as stale. -/
def staleEvents : List (Nat × EventRow) :=
  let exited : Shown := ⟨1, 2, 1, 1, 2, true, false, .exited⟩
  [(1, Shown.row ⟨1, 1, 0, 0, 0, false, false, .active⟩ 1 .discover .accepted .none),
    (2, Shown.row ⟨1, 1, 1, 1, 1, true, true, .active⟩ 2 .bind .accepted .none),
    (3, exited.row 3 .exit .accepted .none),
    (4, exited.row 4 .bind .rejected .stale),
    (5, exited.row 5 .update .rejected .stale)]

def exitedState : ReplayState :=
  ⟨lit "trace", 1, 1, 1, 1, 2, 1, 1, 2, .exited, .exited, [1]⟩

theorem progressAfter_staleEvents_four :
    progressAfter (staleEvents.take 4) = some ⟨some exitedState, 3, 1⟩ := by decide +kernel

theorem progressAfter_staleEvents :
    progressAfter staleEvents = some ⟨some exitedState, 3, 2⟩ := by decide +kernel

theorem encodable_staleEvents : ∀ e ∈ staleEvents, e.2.Encodable (lit "trace") e.1 := by
  have hrange : ∀ x : Shown, x.sourceInstance ≤ 2 ∧ x.sourceGeneration ≤ 2 ∧
      x.boundSourceInstance ≤ 2 ∧ x.boundSourceGeneration ≤ 2 ∧ x.bindingGeneration ≤ 2 →
      x.InRange := fun x hx => Shown.inRange_of_le (by decide) hx
  repeat' refine List.forall_mem_cons.mpr ⟨?_, ?_⟩
  iterate 3
    · exact encodable_row (hrange _ (by decide)) (by decide) (.inl ⟨rfl, rfl⟩)
  iterate 2
    · exact encodable_row (hrange _ (by decide)) (by decide) (.inr ⟨rfl, by decide⟩)
  · simp

def staleTrace : Trace :=
  ⟨staleEvents, terminalFor (staleEvents.length + 1) exitedState ⟨some exitedState, 3, 2⟩⟩

theorem encodable_staleTrace : staleTrace.Encodable (lit "trace") :=
  encodable_trace (by decide) (by decide) encodable_staleEvents progressAfter_staleEvents (by decide)

theorem staleTrace_passes (interp : Interpreter) :
    ∃ v, verifyTraceBytes interp (encodeTrace (lit "trace") staleTrace) = .ok v ∧ v.passed = true :=
  encodable_staleTrace.passes interp progressAfter_staleEvents rfl
    (terminalMatches_terminalFor ⟨rfl, rfl, rfl⟩ _ _)

/-- The trace with stale events passes, and its events move as they should. -/
theorem replay_generations_sound_stale :
    ∃ v tr, verifyTraceBytes plainInterpreter (encodeTrace (lit "trace") staleTrace) = .ok v ∧
      TraceOf plainInterpreter (encodeTrace (lit "trace") staleTrace) tr ∧
      SameInstances tr ∧ TerminalSound tr := by
  obtain ⟨v, hv, hpassed⟩ := staleTrace_passes plainInterpreter
  obtain ⟨tr, htrace, -, hinstances, hterminal⟩ := replay_generations_sound hv hpassed
  exact ⟨v, tr, hv, htrace, hinstances, hterminal⟩

/-- A `bind` and an `update` of a passing trace that leave the generations as they were: those
that the trace claims as stale. -/
theorem stale_events_keep_generations :
    ∃ raw, ∀ interp, ∃ v tr, verifyTraceBytes interp raw = .ok v ∧ v.passed = true ∧
      TraceOf interp raw tr ∧
      (∃ before line r after p q, tr.events = before ++ (line, r) :: after ∧ r.event = .bind ∧
        progressAfter before = some p ∧ progressAfter (before ++ [(line, r)]) = some q ∧
        q.bindingGeneration = p.bindingGeneration) ∧
      (∃ before line r after p q, tr.events = before ++ (line, r) :: after ∧ r.event = .update ∧
        progressAfter before = some p ∧ progressAfter (before ++ [(line, r)]) = some q ∧
        q.sourceGeneration = p.sourceGeneration) := by
  refine ⟨encodeTrace (lit "trace") staleTrace, fun interp => ?_⟩
  obtain ⟨v, hv, hpassed⟩ := staleTrace_passes interp
  refine ⟨v, staleTrace, hv, hpassed, ⟨_, _, encodable_staleTrace.reads interp⟩, ?_, ?_⟩
  · exact ⟨staleEvents.take 3, 4, _, _, ⟨some exitedState, 3, 0⟩, _, rfl, rfl, by decide +kernel,
      progressAfter_staleEvents_four, rfl⟩
  · exact ⟨staleEvents.take 4, 5, _, [], _, _, rfl, rfl, progressAfter_staleEvents_four,
      progressAfter_staleEvents, rfl⟩

end AiosKernel.Replay
