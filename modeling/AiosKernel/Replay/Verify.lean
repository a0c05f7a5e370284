/-
# `AiosKernel.Replay.Verify` — the semantic phase and the verdict

Phase 5 of `tools/hosted/binding_trace_replay.py`, `_phase_semantic`, and
`verify_trace_bytes`, which runs the five phases and builds the verdict.  What
the Python code could raise is an `Except.error` here; that none is raised is a
result about all five phases, not an assumption.
-/
import AiosKernel.Replay.Lifecycle

namespace AiosKernel.Replay

open Py

/-! ## Phase 5 -/

/-- `_semantic_failure` of an event. -/
def semanticFailure (r : EventRow) (line : Nat) (issue : Issue) (computedOutcome : Outcome)
    (computedReason : Reason) : Failure :=
  ⟨.semantic, issue.1, some line, r.sequence, issue.2,
    some ⟨computedOutcome, computedReason, r.claimedOutcome, r.claimedReason⟩⟩

/-- What the loop of `_phase_semantic` does with one event. -/
inductive Step where
  | failed (failure : Failure)
  | rejected
  | accepted (state : ReplayState)
  deriving DecidableEq, Repr

/-- The issue of the two that comes first in the validation precedence, the first on a tie. -/
def minIssue (a b : Issue) : Issue :=
  if nativeReasonRank b.1 < nativeReasonRank a.1 then b else a

/-- The native issue of a transition, next to the one of its record. -/
def Transition.nativeCandidate (t : Transition) : Option Issue :=
  if t.expectedRejection then
    some (t.computedReason, t.issueDetail.getD (lit "expected semantic rejection"))
  else
    match t.issueReason with
    | some reason =>
      if reason.isTrace then none
      else some (reason, t.issueDetail.getD (lit "native semantic rejection"))
    | none => none

/-- The issue that `_phase_semantic` reports for a record with a native issue. -/
def selectIssue (native : Issue) (t : Transition) : Issue :=
  match t.nativeCandidate with
  | some other => minIssue native other
  | none => native

/-- Whether a rejection that the trace had to claim was claimed otherwise. -/
def misclaimed (r : EventRow) (t : Transition) : Bool :=
  t.expectedRejection &&
    (r.claimedOutcome != .rejected || .native r.claimedReason != t.computedReason)

/-- The host or producer instance that changed inside the trace. -/
def instanceIssue (r : EventRow) (state : Option ReplayState) : Option Issue :=
  match state with
  | none => none
  | some s =>
    if u64 r.hostInstance ≠ s.hostInstance then
      some (.hostInstance, lit "host_instance " ++ dec (u64 r.hostInstance) ++
        lit " must remain " ++ dec s.hostInstance)
    else if u64 r.producerInstance ≠ s.producerInstance then
      some (.producerInstance, lit "producer_instance changed inside one trace")
    else none

/-- What is left to do with an event whose record and transition have no native issue. -/
def settleEvent (r : EventRow) (line : Nat) (t : Transition) : Except PyError Step :=
  match t.issueReason with
  | some reason =>
    .ok (.failed (semanticFailure r line
      (reason, t.issueDetail.getD (lit "invalid lifecycle transition"))
      t.computedOutcome t.computedReason))
  | none =>
    if t.expectedRejection then .ok .rejected
    else if r.claimedOutcome ≠ .accepted ∨ r.claimedReason ≠ .none then
      .ok (.failed (semanticFailure r line
        (.outcome, lit "producer rejection claim does not match computed accepted/none")
        .accepted (.native .none)))
    else
      match t.candidate with
      | none => .error (.assertionError "accepted transition did not provide candidate state")
      | some next => .ok (.accepted next)

/-- The checks of the loop body from the transition's own native issue on. -/
def judgeEvent (r : EventRow) (line : Nat) (state : Option ReplayState) (t : Transition) :
    Except PyError Step :=
  let failed (issue : Issue) : Except PyError Step :=
    .ok (.failed (semanticFailure r line issue t.computedOutcome t.computedReason))
  match t.issueReason.filter fun reason => !reason.isTrace with
  | some reason => failed (reason, t.issueDetail.getD (lit "native semantic rejection"))
  | none =>
    if misclaimed r t then
      failed (t.computedReason,
        t.issueDetail.getD (lit "claimed result does not match stale rejection"))
    else
      match instanceIssue r state with
      | some issue => failed issue
      | none => settleEvent r line t

/-- The loop body of `_phase_semantic`. -/
def semanticStep (state : Option ReplayState) (line : Nat) (r : EventRow) : Except PyError Step :=
  let t := transitionForEvent r state
  if state.isNone ∧ r.event ≠ .discover then
    .ok (.failed (semanticFailure r line
      (t.issueReason.getD t.computedReason, t.issueDetail.getD (lit "invalid initial event"))
      t.computedOutcome t.computedReason))
  else
    match nativeRecordIssue r state with
    | some native =>
      let selected := selectIssue native t
      .ok (.failed (semanticFailure r line selected .rejected selected.1))
    | none => judgeEvent r line state t

/-- What the loop of `_phase_semantic` has gathered. -/
structure Progress where
  state : Option ReplayState
  acceptedCount : Nat
  rejectedCount : Nat
  deriving DecidableEq, Repr

def Progress.start : Progress := ⟨none, 0, 0⟩

/-- The loop of `_phase_semantic`: it ends with the first failure, or with what it gathered. -/
def replayEvents (p : Progress) : List (Nat × EventRow) → Except PyError (Failure ⊕ Progress)
  | [] => .ok (.inr p)
  | (line, r) :: rest =>
    match semanticStep p.state line r with
    | .error e => .error e
    | .ok (.failed f) => .ok (.inl f)
    | .ok .rejected => replayEvents { p with rejectedCount := p.rejectedCount + 1 } rest
    | .ok (.accepted s) => replayEvents ⟨some s, p.acceptedCount + 1, p.rejectedCount⟩ rest

structure Summary where
  acceptedCount : Nat
  rejectedCount : Nat
  finalState : ReplayPhase
  finalBindingGeneration : Str
  lastSequence : Option Int
  deriving DecidableEq, Repr

/-- The end of `_phase_semantic`: the terminal against the replay. -/
def checkTerminal (interp : Interpreter) (line : Nat) (t : TerminalRow) (s : ReplayState)
    (p : Progress) : Failure ⊕ Summary :=
  let failed (reason : Reason) (detail : Str) : Failure ⊕ Summary :=
    .inl (fail .semantic reason (some line) t.sequence detail)
  let mismatch (name : String) (actual expected : Str) : Failure ⊕ Summary :=
    failed .terminal (lit "terminal " ++ lit name ++ lit " " ++ actual ++
      lit " does not match replayed value " ++ expected)
  if u64 t.hostInstance ≠ s.hostInstance then
    failed .hostInstance (lit "terminal host_instance does not match the replayed trace")
  else if u64 t.producerInstance ≠ s.producerInstance then
    failed .producerInstance (lit "terminal producer_instance does not match the replayed trace")
  else if t.acceptedCount ≠ p.acceptedCount then
    mismatch "accepted_count" (decInt t.acceptedCount) (dec p.acceptedCount)
  else if t.rejectedCount ≠ p.rejectedCount then
    mismatch "rejected_count" (decInt t.rejectedCount) (dec p.rejectedCount)
  else if t.finalState ≠ s.replayState then
    mismatch "final_state" (quoted t.finalState.text) (quoted s.replayState.text)
  else if t.finalBindingGeneration ≠ dec s.bindingGeneration then
    mismatch "final_binding_generation" (repr interp.printable t.finalBindingGeneration)
      (repr interp.printable (dec s.bindingGeneration))
  else
    .inr ⟨p.acceptedCount, p.rejectedCount, s.replayState, dec s.bindingGeneration, t.sequence⟩

/-- A numbered record, if it is an object that satisfies a test. -/
def objectIf (test : Json → Bool) : Json × Nat → Option (Nat × Dict)
  | (.obj d, line) => if test (.obj d) then some (line, d) else none
  | _ => none

/-- The objects among the records that satisfy a test, with their lines. -/
def objectsWhere (test : Json → Bool) (records : List Json) : List (Nat × Dict) :=
  (records.zipIdx 1).filterMap (objectIf test)

/-- `event_records`, each read into a row. -/
def readEvents : List (Nat × Dict) → Except PyError (List (Nat × EventRow))
  | [] => .ok []
  | (line, d) :: rest => do
    let r ← readEvent d
    let rows ← readEvents rest
    .ok ((line, r) :: rows)

/-- `_phase_semantic`: a failure, or the summary of the replay. -/
def phaseSemantic (interp : Interpreter) (records : List Json) :
    Except PyError (Failure ⊕ Summary) := do
  let rows ← readEvents (objectsWhere isEvent records)
  match objectsWhere isTerminal records with
  | [] => .error .stopIteration
  | (line, d) :: _ =>
    let terminal ← readTerminal d
    if rows.isEmpty then
      .ok (.inl (fail .semantic (.native .initOrder) (some line) terminal.sequence
        (lit "at least one discover event is required before terminal")))
    else
      match ← replayEvents .start rows with
      | .inl failure => .ok (.inl failure)
      | .inr p =>
        match p.state with
        | none => .error (.assertionError "state is not None")
        | some s => .ok (checkTerminal interp line terminal s p)

/-! ## The verdict -/

/-- The verdict of `verify_trace_bytes`.  The values that come from a record before it is known
to be well typed are decoded values, and `none` is Python's `None`. -/
structure Verdict where
  schemaVersion : Nat
  passed : Bool
  traceId : Option Str
  recordCount : Option Json
  acceptedCount : Option Json
  rejectedCount : Option Json
  lastSequence : Option Int
  finalState : Option ReplayPhase
  finalBindingGeneration : Option Str
  firstFailure : Option Failure
  reasons : List Reason
  observationOnly : Nat
  managementOnly : Nat
  verifiedPhases : List Phase
  semanticPhaseExecuted : Bool

/-- The order of the failures: by phase, then by line, and otherwise as they were found. -/
def failureLe (a b : Failure) : Bool :=
  decide (a.phase.number < b.phase.number) ||
    (a.phase.number == b.phase.number && decide (a.line.getD 0 ≤ b.line.getD 0))

/-- `record["trace_id"]` of an object that has one. -/
def recordTraceId : Json → Option Json
  | .obj d => getField d "trace_id"
  | _ => none

/-- The trace id of the first object that has one, if it is well formed. -/
def verdictTraceId (records : List Json) : Option Str :=
  match records.findSome? recordTraceId with
  | some (.str s) => if traceIdPattern s then some s else none
  | _ => none

def lastTerminal (records : List Json) : Option Dict :=
  (objectsWhere isTerminal records).getLast?.map Prod.snd

/-- The reasons of the failures, each once, in order. -/
def distinctReasons (failures : List Failure) : List Reason :=
  failures.foldl (fun seen f => if seen.contains f.reason then seen else seen ++ [f.reason]) []

/-- The verdict on the records of a trace with the given failures. -/
def verdictOf (records : List Json) (failures : List Failure) (summary : Option Summary)
    (semanticPhaseExecuted : Bool) : Verdict :=
  let sorted := failures.mergeSort failureLe
  let passed := sorted.isEmpty
  let terminal (name : String) : Option Json := (lastTerminal records).bind (getField · name)
  let whenPassed {α : Type} (x : Option α) : Option α := if passed then x else none
  { schemaVersion := 1
    passed := passed
    traceId := verdictTraceId records
    recordCount := terminal "record_count"
    acceptedCount := (summary.map fun s => Json.int s.acceptedCount).or (terminal "accepted_count")
    rejectedCount := (summary.map fun s => Json.int s.rejectedCount).or (terminal "rejected_count")
    lastSequence := whenPassed (summary.bind (·.lastSequence))
    finalState := whenPassed (summary.map (·.finalState))
    finalBindingGeneration := whenPassed (summary.map (·.finalBindingGeneration))
    firstFailure := sorted.head?
    reasons := distinctReasons sorted
    observationOnly := 1
    managementOnly := 1
    verifiedPhases :=
      [.raw, .json, .shape, .envelope] ++ if semanticPhaseExecuted then [.semantic] else []
    semanticPhaseExecuted := semanticPhaseExecuted }

/-- The decoded records of a trace, `None` for a line that does not decode. -/
def recordsOf (interp : Interpreter) (raw : List UInt8) : List Json :=
  (phaseJson interp (phaseRaw raw).1).1

/-- The failures of phases 1 to 4. -/
def earlyFailures (interp : Interpreter) (raw : List UInt8) : List Failure :=
  let lines := phaseRaw raw
  let records := phaseJson interp lines.1
  lines.2 ++ records.2 ++ phaseShape interp records.1 ++ phaseEnvelope interp records.1

/-- `verify_trace_bytes` under the checked-in contract. -/
def verifyTraceBytes (interp : Interpreter) (raw : List UInt8) : Except PyError Verdict :=
  let records := recordsOf interp raw
  let failures := earlyFailures interp raw
  if failures.isEmpty then
    match phaseSemantic interp records with
    | .error e => .error e
    | .ok (.inl failure) => .ok (verdictOf records [failure] none true)
    | .ok (.inr summary) => .ok (verdictOf records [] (some summary) true)
  else .ok (verdictOf records failures none false)

end AiosKernel.Replay
