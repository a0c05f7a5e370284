/-
# `AiosKernel.Replay.Total` — the verifier always returns a verdict

None of the exceptions that the semantic phase could raise can happen.  It is
entered only if the earlier phases found nothing, so that every record is well
shaped and read into a row; a transition that is neither an issue nor an
expected rejection carries its candidate state; and the first event of a trace
leaves a state behind or ends the loop.  The two functions that take a
generation mode raise on an unknown one, and are only called with a known one.
-/
import AiosKernel.Replay.Runs

namespace AiosKernel.Replay

open Py Transition List

/-! ## Generation modes -/

def GenerationMode.text : GenerationMode → String
  | .exact => "exact"
  | .increase => "increase"

/-- `_current_source_issue` with the mode as a string: an unknown mode is a `ValueError` where
the code gets to it. -/
def currentSourceIssueAt (r : EventRow) (state : ReplayState) (mode : String) :
    Except PyError (Option Issue) :=
  let sourceInstance := u64 r.sourceInstance
  let sourceGeneration := u64 r.sourceGeneration
  if sourceInstance ≠ state.sourceInstance then
    .ok (some (.native .inst, lit "source_instance " ++ dec sourceInstance ++
      lit " does not match current instance " ++ dec state.sourceInstance))
  else if mode = "exact" then
    if sourceGeneration < state.sourceGeneration then
      .ok (some (.native .stale, lit "source_generation " ++ dec sourceGeneration ++
        lit " is older than current generation " ++ dec state.sourceGeneration))
    else if sourceGeneration > state.sourceGeneration then
      .ok (some (.native .generationRollback, lit "source_generation " ++ dec sourceGeneration ++
        lit " is ahead of replayed generation " ++ dec state.sourceGeneration))
    else .ok none
  else if mode = "increase" ∧ sourceGeneration ≤ state.sourceGeneration then
    .ok (some (.native .generationRollback, lit "source_generation " ++ dec sourceGeneration ++
      lit " must be greater than " ++ dec state.sourceGeneration ++ lit " for this event"))
  else if mode ∉ ["exact", "increase"] then .error (.valueError "generation_mode")
  else .ok none

/-- `_binding_projection_issue` with the mode as a string; `expected.mode` is not read. -/
def bindingProjectionIssueAt (r : EventRow) (expected : Projection) (mode : String) :
    Except PyError (Option Issue) :=
  let actualInstance := u64 r.boundSourceInstance
  let actualSourceGeneration := u64 r.boundSourceGeneration
  let actualBindingGeneration := u64 r.bindingGeneration
  if r.bindingValid ≠ expected.valid ∨ r.bindingCurrent ≠ expected.current then
    .ok (some (.native .malformed,
      lit "binding_valid/binding_current projection does not match the replayed state"))
  else if actualInstance ≠ expected.inst then
    .ok (some (.native .inst, lit "bound_source_instance " ++ dec actualInstance ++
      lit " does not match expected instance " ++ dec expected.inst))
  else if actualSourceGeneration < expected.sourceGeneration then
    .ok (some (.native .stale, lit "bound_source_generation " ++ dec actualSourceGeneration ++
      lit " is older than expected generation " ++ dec expected.sourceGeneration))
  else if actualSourceGeneration > expected.sourceGeneration then
    .ok (some (.native .generationRollback, lit "bound_source_generation " ++
      dec actualSourceGeneration ++ lit " is ahead of expected generation " ++
      dec expected.sourceGeneration))
  else if mode = "exact" then
    if actualBindingGeneration < expected.priorGeneration then
      .ok (some (.native .generationRollback, lit "binding_generation " ++
        dec actualBindingGeneration ++ lit " rolled back from " ++ dec expected.priorGeneration))
    else if actualBindingGeneration > expected.priorGeneration then
      .ok (some (.stateTransition, lit "binding_generation " ++ dec actualBindingGeneration ++
        lit " advanced without a bind, rebind, or exit transition"))
    else .ok none
  else if mode = "increase" then
    if actualBindingGeneration ≤ expected.priorGeneration then
      .ok (some (.native .generationRollback, lit "binding_generation " ++
        dec actualBindingGeneration ++ lit " must be greater than " ++
        dec expected.priorGeneration ++ lit " for this event"))
    else .ok none
  else .error (.valueError "generation_mode")

theorem currentSourceIssueAt_text (r : EventRow) (state : ReplayState) (mode : GenerationMode) :
    currentSourceIssueAt r state mode.text = .ok (currentSourceIssue r state mode) := by
  cases mode with
  | exact =>
    simp only [currentSourceIssueAt, currentSourceIssue, GenerationMode.text, if_true]
    repeat' split
    all_goals rfl
  | increase =>
    simp only [currentSourceIssueAt, currentSourceIssue, GenerationMode.text]
    split
    · rfl
    · by_cases hle : u64 r.sourceGeneration ≤ state.sourceGeneration
      · simp [hle]
      · simp [hle]

theorem bindingProjectionIssueAt_text (r : EventRow) (expected : Projection) :
    bindingProjectionIssueAt r expected expected.mode.text =
      .ok (bindingProjectionIssue r expected) := by
  unfold bindingProjectionIssueAt bindingProjectionIssue
  cases expected.mode with
  | exact =>
    simp only [GenerationMode.text, if_true]
    repeat' split
    all_goals rfl
  | increase =>
    have hne : "increase" ≠ "exact" := by decide
    simp only [GenerationMode.text, if_neg hne, if_true]
    repeat' split
    all_goals rfl

/-! ## The loop -/

theorem semanticStep_returns (state : Option ReplayState) (line : Nat) (r : EventRow) :
    Returns (semanticStep state line r) := by
  have hkind := transitionForEvent_kind r state
  generalize ht : transitionForEvent r state = t at hkind
  cases hkind with
  | reject issue =>
    obtain ⟨f, hf⟩ := semanticStep_reject line ht
    exact ⟨_, hf⟩
  | accept s =>
    simp only [semanticStep, ht, judgeEvent, settleEvent, accept]
    repeat' split
    all_goals exact ⟨_, rfl⟩
  | stale detail =>
    simp only [semanticStep, ht, judgeEvent, settleEvent, stale]
    -- `expected_rejection` is set, so the branch that asks for a candidate is dead
    repeat' split
    all_goals first | exact ⟨_, rfl⟩ | contradiction

theorem replayEvents_returns (p : Progress) (events : List (Nat × EventRow)) :
    Returns (replayEvents p events) := by
  induction events generalizing p with
  | nil => exact ⟨_, rfl⟩
  | cons e events ih =>
    obtain ⟨line, r⟩ := e
    obtain ⟨step, hstep⟩ := semanticStep_returns p.state line r
    simp only [replayEvents, hstep]
    cases step with
    | failed f => exact ⟨_, rfl⟩
    | rejected | accepted s => exact ih _

/-- A replay with an event in it ends with a state: the first event makes one, and no later
event takes it away. -/
theorem exists_state {events : List (Nat × EventRow)} (hne : events ≠ []) {p : Progress}
    (hp : progressAfter events = some p) : ∃ s, p.state = some s := by
  obtain ⟨init, ⟨line, r⟩, rfl⟩ := (eq_nil_or_concat' events).resolve_left hne
  obtain ⟨m, -, hmove⟩ := progressAfter_snoc.mp hp
  cases hmove with
  | accepted sane outcome reason accepts => exact ⟨_, rfl⟩
  | rejected sane outcome reason state stale => exact ⟨_, state⟩

/-! ## The verdict -/

theorem readEvents_returns {objects : List (Nat × Dict)}
    (h : ∀ x ∈ objects, WellShaped eventFields x.2) : Returns (readEvents objects) := by
  induction objects with
  | nil => exact ⟨_, rfl⟩
  | cons x objects ih =>
    obtain ⟨line, d⟩ := x
    have hd : WellShaped eventFields d := h (line, d) mem_cons_self
    have hrest := ih fun y hy => h y (mem_cons_of_mem _ hy)
    exact hd.readEvent.bind fun _ => hrest.bind fun _ => ⟨_, rfl⟩

theorem phaseSemantic_returns {interp : Interpreter} {records : List Json}
    (hshape : phaseShape interp records = []) (hterminal : terminalFailures records = []) :
    Returns (phaseSemantic interp records) := by
  obtain ⟨dicts, last, hrecords, hevents, hlast⟩ := records_of_clean hshape hterminal
  have hshaped : ∀ d ∈ dicts ++ [last], Shaped d := by
    rw [← phaseShape_eq_nil]
    simpa [hrecords] using hshape
  have hrows : Returns (readEvents ((dicts.zipIdx 1).map Prod.swap)) := by
    refine readEvents_returns fun x hx => ?_
    obtain ⟨y, hy, rfl⟩ := mem_map.mp hx
    have hmem := fst_mem_of_mem_zipIdx hy
    exact (hshaped _ (mem_append_left _ hmem)).ofEvent (hevents _ hmem)
  have hread : Returns (readTerminal last) :=
    ((hshaped last (by simp)).ofTerminal hlast).readTerminal
  unfold phaseSemantic
  rw [hrecords, objectsWhere_isEvent hevents hlast, objectsWhere_isTerminal hevents hlast]
  refine hrows.bind fun rows => hread.bind fun terminal => ?_
  split
  · exact ⟨_, rfl⟩
  · rename_i hne
    obtain ⟨result, hreplay⟩ := replayEvents_returns .start rows
    cases result with
    | inl failure => exact ⟨_, by rw [hreplay]; rfl⟩
    | inr p =>
      obtain ⟨s, hs⟩ := exists_state (by simpa using hne) (progressAfter_eq_some.mpr hreplay)
      exact ⟨checkTerminal interp (1 + dicts.length) terminal s p, by
        rw [hreplay]
        simp only [bind, Except.bind, hs]⟩

theorem verifyTraceBytes_returns (interp : Interpreter) (raw : List UInt8) :
    Returns (verifyTraceBytes interp raw) := by
  unfold verifyTraceBytes
  simp only
  split
  · rename_i hclean
    simp only [earlyFailures, phaseEnvelope, List.isEmpty_iff, List.append_eq_nil_iff] at hclean
    obtain ⟨result, hresult⟩ : Returns (phaseSemantic interp (recordsOf interp raw)) :=
      phaseSemantic_returns hclean.1.2 hclean.2.2
    rw [hresult]
    cases result with
    | inl failure | inr summary => exact ⟨_, rfl⟩
  · exact ⟨_, rfl⟩

/-- The records that the semantic phase gets are well shaped: it runs only after clean phases. -/
theorem shaped_of_clean {interp : Interpreter} {raw : List UInt8}
    (hclean : earlyFailures interp raw = []) {record : Json}
    (hmem : record ∈ recordsOf interp raw) : ∃ d, record = .obj d ∧ Shaped d := by
  simp only [earlyFailures, append_eq_nil_iff] at hclean
  have hrecord : recordFailures interp record = [] := mem_of_phaseShape_eq_nil hclean.1.2 hmem
  obtain ⟨d, rfl, -⟩ := recordFailures_eq_nil hrecord
  exact ⟨d, rfl, recordFailures_obj.mp hrecord⟩

/-- For every byte string the verifier returns a verdict.  Its semantic phase only sees records
that have every field of their schema, well typed, and asks for generation modes that exist. -/
theorem verifier_never_raises : (∀ interp raw, ∃ v, verifyTraceBytes interp raw = .ok v) ∧
    (∀ interp raw, earlyFailures interp raw = [] →
      ∀ record ∈ recordsOf interp raw, ∃ d, record = .obj d ∧ Shaped d) ∧
    (∀ r state mode, currentSourceIssueAt r state (GenerationMode.text mode) =
      .ok (currentSourceIssue r state mode)) ∧
    (∀ r expected, bindingProjectionIssueAt r expected expected.mode.text =
      .ok (bindingProjectionIssue r expected)) :=
  ⟨verifyTraceBytes_returns, fun _ _ hclean _ hmem => shaped_of_clean hclean hmem,
    currentSourceIssueAt_text, bindingProjectionIssueAt_text⟩

/-- The semantic phase is entered for the trace with stale events, whose records are well
shaped. -/
theorem verifier_never_raises_stale :
    earlyFailures plainInterpreter (encodeTrace (lit "trace") staleTrace) = [] ∧
      ∀ record ∈ recordsOf plainInterpreter (encodeTrace (lit "trace") staleTrace),
        ∃ d, record = .obj d ∧ Shaped d := by
  have hclean := encodable_staleTrace.clean plainInterpreter
  exact ⟨hclean, verifier_never_raises.2.1 plainInterpreter _ hclean⟩

end AiosKernel.Replay
