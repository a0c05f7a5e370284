/-
# `AiosKernel.Replay.Lifecycle` — the replay of a binding's lifecycle

The transition function of `tools/hosted/binding_trace_replay.py`: what an event
does to the replay state, which reason it is rejected with, and which
rejections a trace is expected to claim.

The code works on the decoded object of an event; here its fields are read into
an `EventRow` first, with the exception a missing or badly typed field would
raise.  A `u64` field stays the string it is, and `u64` reads its value.
-/
import AiosKernel.Replay.Transport

namespace AiosKernel.Replay

open Py

/-! ## Reading a record -/

/-- The Python exceptions that the later phases could raise. -/
inductive PyError where
  | keyError (name : String)
  | typeError (name : String)
  | valueError (name : String)
  | assertionError (msg : String)
  | stopIteration
  deriving DecidableEq, Repr

/-- `record[name]`. -/
def item (d : Dict) (name : String) : Except PyError Json :=
  match getField d name with
  | some v => .ok v
  | none => .error (.keyError name)

def itemStr (d : Dict) (name : String) : Except PyError Str :=
  match item d name with
  | .ok (.str s) => .ok s
  | .ok _ => .error (.typeError name)
  | .error e => .error e

/-- `int(record[name])`, with the string kept.  `int` reads other spellings than plain digits as
well; they count as a `ValueError` here, and phase 3 lets none of them through. -/
def itemU64 (d : Dict) (name : String) : Except PyError Str :=
  match itemStr d name with
  | .ok s => if s.isEmpty || !s.all isDigit then .error (.valueError name) else .ok s
  | .error e => .error e

def itemInt (d : Dict) (name : String) : Except PyError Int :=
  match item d name with
  | .ok (.int n) => .ok n
  | .ok _ => .error (.typeError name)
  | .error e => .error e

/-- A field with a value of an enumeration. -/
def itemEnum {α : Type} (text : α → String) (values : List α) (d : Dict) (name : String) :
    Except PyError α :=
  match itemStr d name with
  | .ok s =>
    match ofText text values s with
    | some v => .ok v
    | none => .error (.valueError name)
  | .error e => .error e

/-- An event record, as the replay reads it. -/
structure EventRow where
  traceId : Str
  sequence : Option Int
  hostInstance : Str
  event : EventName
  claimedOutcome : Outcome
  claimedReason : NativeReason
  canonicalNamespace : Str
  canonicalId : Str
  canonicalKind : Str
  canonicalGeneration : Str
  canonicalValid : Int
  parentCellId : Str
  parentGeneration : Str
  parentValid : Int
  producerInstance : Str
  producerOwned : Int
  copiedRead : Int
  sourceNamespace : Str
  sourceId : Str
  sourceInstance : Str
  sourceGeneration : Str
  sourceKind : Str
  sourceRole : Str
  sourceValid : Int
  boundSourceInstance : Str
  boundSourceGeneration : Str
  bindingGeneration : Str
  bindingValid : Int
  bindingCurrent : Int
  kindMatch : Int
  roleMatch : Int
  generationValid : Int
  lifecycleState : Lifecycle
  lifecycleValid : Int
  observedAtNs : Str
  observedAtValid : Int
  deriving DecidableEq, Repr

/-- The terminal record, as the replay reads it. -/
structure TerminalRow where
  sequence : Option Int
  hostInstance : Str
  producerInstance : Str
  acceptedCount : Int
  rejectedCount : Int
  finalState : ReplayPhase
  finalBindingGeneration : Str
  deriving DecidableEq, Repr

def readEvent (d : Dict) : Except PyError EventRow := do
  return {
    traceId := ← itemStr d "trace_id"
    sequence := sequenceOf d
    hostInstance := ← itemU64 d "host_instance"
    event := ← itemEnum EventName.text eventNames d "event"
    claimedOutcome := ← itemEnum Outcome.text outcomes d "claimed_outcome"
    claimedReason := ← itemEnum NativeReason.text nativeReasons d "claimed_reason"
    canonicalNamespace := ← itemStr d "canonical_namespace"
    canonicalId := ← itemStr d "canonical_id"
    canonicalKind := ← itemStr d "canonical_kind"
    canonicalGeneration := ← itemU64 d "canonical_generation"
    canonicalValid := ← itemInt d "canonical_valid"
    parentCellId := ← itemStr d "parent_cell_id"
    parentGeneration := ← itemU64 d "parent_generation"
    parentValid := ← itemInt d "parent_valid"
    producerInstance := ← itemU64 d "producer_instance"
    producerOwned := ← itemInt d "producer_owned"
    copiedRead := ← itemInt d "copied_read"
    sourceNamespace := ← itemStr d "source_namespace"
    sourceId := ← itemU64 d "source_id"
    sourceInstance := ← itemU64 d "source_instance"
    sourceGeneration := ← itemU64 d "source_generation"
    sourceKind := ← itemStr d "source_kind"
    sourceRole := ← itemStr d "source_role"
    sourceValid := ← itemInt d "source_valid"
    boundSourceInstance := ← itemU64 d "bound_source_instance"
    boundSourceGeneration := ← itemU64 d "bound_source_generation"
    bindingGeneration := ← itemU64 d "binding_generation"
    bindingValid := ← itemInt d "binding_valid"
    bindingCurrent := ← itemInt d "binding_current"
    kindMatch := ← itemInt d "kind_match"
    roleMatch := ← itemInt d "role_match"
    generationValid := ← itemInt d "generation_valid"
    lifecycleState := ← itemEnum Lifecycle.text lifecycles d "lifecycle_state"
    lifecycleValid := ← itemInt d "lifecycle_valid"
    observedAtNs := ← itemU64 d "observed_at_ns"
    observedAtValid := ← itemInt d "observed_at_valid" }

def readTerminal (d : Dict) : Except PyError TerminalRow := do
  return {
    sequence := sequenceOf d
    hostInstance := ← itemU64 d "host_instance"
    producerInstance := ← itemU64 d "producer_instance"
    acceptedCount := ← itemInt d "accepted_count"
    rejectedCount := ← itemInt d "rejected_count"
    finalState := ← itemEnum ReplayPhase.text replayPhases d "final_state"
    finalBindingGeneration := ← itemStr d "final_binding_generation" }

/-- `_u64`: the value of a decimal string. -/
def u64 (s : Str) : Nat := decValue s

/-! ## The replay state -/

structure ReplayState where
  traceId : Str
  hostInstance : Nat
  producerInstance : Nat
  sourceId : Nat
  sourceInstance : Nat
  sourceGeneration : Nat
  boundSourceInstance : Nat
  boundSourceGeneration : Nat
  bindingGeneration : Nat
  lifecycleState : Lifecycle
  replayState : ReplayPhase
  seenSourceInstances : List Nat
  deriving DecidableEq, Repr

abbrev Issue : Type := Reason × Str

structure Transition where
  computedOutcome : Outcome
  computedReason : Reason
  candidate : Option ReplayState
  issueReason : Option Reason
  issueDetail : Option Str
  expectedRejection : Bool
  deriving DecidableEq, Repr

namespace Transition

def reject (issue : Issue) : Transition :=
  ⟨.rejected, issue.1, none, some issue.1, some issue.2, false⟩

def accept (s : ReplayState) : Transition :=
  ⟨.accepted, .native .none, some s, none, none, false⟩

/-- The rejection that a trace must claim as `rejected`/`stale`. -/
def stale (detail : String) : Transition :=
  ⟨.rejected, .native .stale, none, none, some (lit detail), true⟩

/-- The issue if there is one, and otherwise the given transition. -/
def orElse (issue : Option Issue) (next : Transition) : Transition :=
  match issue with
  | some issue => reject issue
  | none => next

end Transition

/-! ## Native issues -/

/-- The native checks of one record, in order; the first that applies is the issue. -/
def firstIssue (checks : List (Bool × NativeReason × String)) : Option Issue :=
  (checks.find? (·.1)).map fun c => (.native c.2.1, lit c.2.2)

def nativeRecordIssue (r : EventRow) (state : Option ReplayState) : Option Issue :=
  firstIssue [
    (u64 r.sourceId = 0, .missing, "source_id must be non-zero"),
    (r.producerOwned ≠ 1 ∨ r.copiedRead ≠ 1, .malformed,
      "producer_owned and copied_read must both equal 1"),
    (u64 r.canonicalGeneration = 0, .zeroGeneration, "canonical_generation must be non-zero"),
    (u64 r.parentGeneration = 0, .zeroGeneration, "parent_generation must be non-zero"),
    (u64 r.sourceGeneration = 0, .zeroGeneration, "source_generation must be non-zero"),
    (r.bindingValid = 1 ∧ u64 r.boundSourceGeneration = 0, .zeroGeneration,
      "valid binding requires non-zero bound_source_generation"),
    (r.bindingValid = 1 ∧ u64 r.bindingGeneration = 0, .zeroGeneration,
      "valid binding requires non-zero binding_generation"),
    (u64 r.hostInstance = 0, .inst, "host_instance must be non-zero"),
    (u64 r.producerInstance = 0, .inst, "producer_instance must be non-zero"),
    (u64 r.sourceInstance = 0, .inst, "source_instance must be non-zero"),
    (r.bindingValid = 1 ∧ u64 r.boundSourceInstance = 0, .inst,
      "valid binding requires non-zero bound_source_instance"),
    (r.canonicalValid ≠ 1, .malformed, "canonical_valid must equal 1"),
    (r.parentValid ≠ 1, .malformed, "parent_valid must equal 1"),
    (r.sourceValid ≠ 1, .malformed, "source_valid must equal 1"),
    (r.generationValid ≠ 1, .malformed, "generation_valid must equal 1"),
    (r.lifecycleValid ≠ 1, .malformed, "lifecycle_valid must equal 1"),
    (r.observedAtValid = 0 ∧ u64 r.observedAtNs ≠ 0, .malformed,
      "observed_at_valid=0 requires observed_at_ns=0"),
    (r.observedAtValid = 1 ∧ u64 r.observedAtNs = 0, .malformed,
      "observed_at_valid=1 requires non-zero observed_at_ns"),
    (r.bindingValid = 0 ∧ (u64 r.boundSourceInstance ≠ 0 ∨ u64 r.boundSourceGeneration ≠ 0 ∨
        u64 r.bindingGeneration ≠ 0 ∨ r.bindingCurrent ≠ 0), .malformed,
      "invalid binding requires the exact zero sentinel projection"),
    (r.bindingValid ≠ 0 ∧ r.bindingCurrent = 1 ∧ r.lifecycleState ≠ .active, .malformed,
      "current binding requires active lifecycle"),
    (r.canonicalNamespace ≠ lit target.canonicalNamespace ∨
        r.sourceNamespace ≠ lit target.sourceNamespace, .nameSpace,
      "canonical/source namespace does not match trusted_target_v1"),
    (r.canonicalId ≠ lit target.canonicalId ∨ r.parentCellId ≠ lit target.parentCellId, .orphan,
      "canonical Node or parent Cell does not match trusted_target_v1"),
    (r.canonicalKind ≠ lit target.canonicalKind ∨ r.sourceKind ≠ lit target.sourceKind ∨
        r.kindMatch ≠ 1, .kind, "canonical/source kind projection is inconsistent"),
    (r.sourceRole ≠ lit target.sourceRole ∨ r.roleMatch ≠ 1, .role,
      "source role projection is inconsistent"),
    (r.sourceId ≠ lit target.nativeSourceId, .orphan,
      "source_id does not match the bounded native source target"),
    (state.any fun s => u64 r.sourceId ≠ s.sourceId, .orphan,
      "source_id changed inside one trace"),
    (u64 r.canonicalGeneration < target.canonicalGeneration, .stale,
      "canonical_generation is older than trusted_target_v1"),
    (u64 r.parentGeneration < target.parentGeneration, .stale,
      "parent_generation is older than trusted_target_v1"),
    (u64 r.canonicalGeneration > target.canonicalGeneration, .generationRollback,
      "canonical_generation is ahead of trusted_target_v1"),
    (u64 r.parentGeneration > target.parentGeneration, .generationRollback,
      "parent_generation is ahead of trusted_target_v1")]

/-! ## Source and binding issues -/

/-- How a generation of a record must relate to the replayed one. -/
inductive GenerationMode where
  | exact
  | increase
  deriving DecidableEq, Repr

def currentSourceIssue (r : EventRow) (state : ReplayState) (mode : GenerationMode) :
    Option Issue :=
  let sourceInstance := u64 r.sourceInstance
  let sourceGeneration := u64 r.sourceGeneration
  if sourceInstance ≠ state.sourceInstance then
    some (.native .inst, lit "source_instance " ++ dec sourceInstance ++
      lit " does not match current instance " ++ dec state.sourceInstance)
  else
    match mode with
    | .exact =>
      if sourceGeneration < state.sourceGeneration then
        some (.native .stale, lit "source_generation " ++ dec sourceGeneration ++
          lit " is older than current generation " ++ dec state.sourceGeneration)
      else if sourceGeneration > state.sourceGeneration then
        some (.native .generationRollback, lit "source_generation " ++ dec sourceGeneration ++
          lit " is ahead of replayed generation " ++ dec state.sourceGeneration)
      else none
    | .increase =>
      if sourceGeneration ≤ state.sourceGeneration then
        some (.native .generationRollback, lit "source_generation " ++ dec sourceGeneration ++
          lit " must be greater than " ++ dec state.sourceGeneration ++ lit " for this event")
      else none

/-- What `_binding_projection_issue` compares a record's binding with. -/
structure Projection where
  inst : Nat
  sourceGeneration : Nat
  priorGeneration : Nat
  mode : GenerationMode
  valid : Int
  current : Int

def bindingProjectionIssue (r : EventRow) (expected : Projection) : Option Issue :=
  let actualInstance := u64 r.boundSourceInstance
  let actualSourceGeneration := u64 r.boundSourceGeneration
  let actualBindingGeneration := u64 r.bindingGeneration
  if r.bindingValid ≠ expected.valid ∨ r.bindingCurrent ≠ expected.current then
    some (.native .malformed,
      lit "binding_valid/binding_current projection does not match the replayed state")
  else if actualInstance ≠ expected.inst then
    some (.native .inst, lit "bound_source_instance " ++ dec actualInstance ++
      lit " does not match expected instance " ++ dec expected.inst)
  else if actualSourceGeneration < expected.sourceGeneration then
    some (.native .stale, lit "bound_source_generation " ++ dec actualSourceGeneration ++
      lit " is older than expected generation " ++ dec expected.sourceGeneration)
  else if actualSourceGeneration > expected.sourceGeneration then
    some (.native .generationRollback, lit "bound_source_generation " ++
      dec actualSourceGeneration ++ lit " is ahead of expected generation " ++
      dec expected.sourceGeneration)
  else
    match expected.mode with
    | .exact =>
      if actualBindingGeneration < expected.priorGeneration then
        some (.native .generationRollback, lit "binding_generation " ++
          dec actualBindingGeneration ++ lit " rolled back from " ++
          dec expected.priorGeneration)
      else if actualBindingGeneration > expected.priorGeneration then
        some (.stateTransition, lit "binding_generation " ++ dec actualBindingGeneration ++
          lit " advanced without a bind, rebind, or exit transition")
      else none
    | .increase =>
      if actualBindingGeneration ≤ expected.priorGeneration then
        some (.native .generationRollback, lit "binding_generation " ++
          dec actualBindingGeneration ++ lit " must be greater than " ++
          dec expected.priorGeneration ++ lit " for this event")
      else none

/-- `repr` of an enumeration's text, which has letters only. -/
def quoted (s : String) : Str := lit "'" ++ lit s ++ lit "'"

/-- The issue of a record whose lifecycle is not the given one. -/
def lifecycleIssue (r : EventRow) (required : Lifecycle) (detail : String) : Option Issue :=
  if r.lifecycleState ≠ required then some (.native .malformed, lit detail) else none

/-- The binding a state retains, as a record must project it: `valid` and `current` as given,
and the binding generation by `mode`. -/
def ReplayState.retained (state : ReplayState) (mode : GenerationMode) (valid current : Int) :
    Projection :=
  ⟨state.boundSourceInstance, state.boundSourceGeneration, state.bindingGeneration, mode,
    valid, current⟩

/-- The binding of the current source, which a `bind` or `rebind` makes. -/
def ReplayState.fresh (state : ReplayState) : Projection :=
  ⟨state.sourceInstance, state.sourceGeneration, state.bindingGeneration, .increase, 1, 1⟩

def snapshotIssue (r : EventRow) (state : ReplayState) : Option Issue :=
  ((currentSourceIssue r state .exact).or
    (if r.lifecycleState ≠ state.lifecycleState then
      some (.native .malformed, lit "lifecycle_state " ++ quoted r.lifecycleState.text ++
        lit " does not match replayed state " ++ quoted state.lifecycleState.text)
    else none)).or
    (bindingProjectionIssue r (state.retained .exact
      (if state.boundSourceInstance ≠ 0 then 1 else 0)
      (if state.replayState = .bound then 1 else 0)))

/-! ## Next states -/

namespace ReplayState

/-- The state after the first `discover`. -/
def discover (r : EventRow) : ReplayState where
  traceId := r.traceId
  hostInstance := u64 r.hostInstance
  producerInstance := u64 r.producerInstance
  sourceId := u64 r.sourceId
  sourceInstance := u64 r.sourceInstance
  sourceGeneration := u64 r.sourceGeneration
  boundSourceInstance := 0
  boundSourceGeneration := 0
  bindingGeneration := 0
  lifecycleState := .active
  replayState := .discovered
  seenSourceInstances := [u64 r.sourceInstance]

/-- The state after a `bind` or `rebind`. -/
def bind (state : ReplayState) (r : EventRow) : ReplayState :=
  { state with
    boundSourceInstance := state.sourceInstance
    boundSourceGeneration := state.sourceGeneration
    bindingGeneration := u64 r.bindingGeneration
    replayState := .bound }

def update (state : ReplayState) (r : EventRow) : ReplayState :=
  { state with
    sourceGeneration := u64 r.sourceGeneration
    replayState := .discovered }

def exit (state : ReplayState) (r : EventRow) : ReplayState :=
  { state with
    sourceGeneration := u64 r.sourceGeneration
    bindingGeneration := u64 r.bindingGeneration
    lifecycleState := .exited
    replayState := .exited }

/-- The state after a later `discover`. -/
def rediscover (state : ReplayState) (r : EventRow) : ReplayState :=
  { state with
    sourceInstance := u64 r.sourceInstance
    sourceGeneration := u64 r.sourceGeneration
    lifecycleState := .active
    replayState := .discovered
    seenSourceInstances := u64 r.sourceInstance :: state.seenSourceInstances }

end ReplayState

/-! ## Transitions -/

section Transitions

open Transition

/-- `_transition_for_event` before the first event: only a `discover` starts a trace. -/
def initialTransition (r : EventRow) : Transition :=
  if r.event ≠ .discover then
    reject (.native .initOrder, lit "the first event must be discover")
  else if r.lifecycleState ≠ .active then
    reject (.native .malformed, lit "initial discover requires active lifecycle")
  else if u64 r.sourceGeneration ≠ target.initialSourceGeneration then
    reject (.stateTransition, lit "initial discover must start at source generation 1")
  else if r.bindingValid ≠ 0 ∨ r.bindingCurrent ≠ 0 then
    reject (.native .initOrder, lit "initial discover cannot carry a pre-existing binding")
  else accept (.discover r)

/-- A record that should be a copy of the state, and then the given transition. -/
def snapshotThen (r : EventRow) (state : ReplayState) (next : Transition) : Transition :=
  orElse (snapshotIssue r state) next

/-- The `update` branch of the bound state. -/
def updateTransition (r : EventRow) (state : ReplayState) : Transition :=
  orElse (((currentSourceIssue r state .increase).or
      (lifecycleIssue r .active "update requires active lifecycle")).or
      (bindingProjectionIssue r (state.retained .exact 1 0)))
    (accept (state.update r))

/-- The `exit` branch of the bound state. -/
def exitTransition (r : EventRow) (state : ReplayState) : Transition :=
  orElse (((currentSourceIssue r state .increase).or
      (lifecycleIssue r .exited "exit requires exited lifecycle projection")).or
      (bindingProjectionIssue r (state.retained .increase 1 0)))
    (accept (state.exit r))

/-- The `bind` and `rebind` branches of the discovered state. -/
def bindTransition (detail : String) (r : EventRow) (state : ReplayState) : Transition :=
  orElse (((currentSourceIssue r state .exact).or (lifecycleIssue r .active detail)).or
      (bindingProjectionIssue r state.fresh))
    (accept (state.bind r))

/-- The `discover` branch of the exited state. -/
def rediscoverTransition (r : EventRow) (state : ReplayState) : Transition :=
  let sourceInstance := u64 r.sourceInstance
  if state.seenSourceInstances.contains sourceInstance then
    reject (.sourceReuse,
      lit "source_instance " ++ dec sourceInstance ++ lit " reuses a retired lifetime")
  else if u64 r.sourceGeneration ≠ target.initialSourceGeneration then
    reject (.stateTransition, lit "rediscover must start the new source instance at generation 1")
  else
    orElse ((lifecycleIssue r .active "rediscover requires active lifecycle").or
        (bindingProjectionIssue r (state.retained .exact 1 0)))
      (accept (state.rediscover r))

/-- The bound state: every event is handled. -/
def boundTransition (r : EventRow) (state : ReplayState) : Transition :=
  match r.event with
  | .discover =>
    snapshotThen r state
      (reject (.native .duplicate, lit "discover duplicated an active source lifetime"))
  | .observe => snapshotThen r state (accept state)
  | .update => updateTransition r state
  | .exit => exitTransition r state
  | .bind | .rebind =>
    snapshotThen r state
      (reject (.native .duplicate, lit "a current exact-one binding already exists"))

/-- The discovered state, with or without a binding retained from before. -/
def discoveredTransition (r : EventRow) (state : ReplayState) : Transition :=
  let retained : Bool := state.boundSourceInstance ≠ 0
  let notAllowed :=
    reject (.stateTransition, lit "event " ++ quoted r.event.text ++
      lit " is not allowed from discovered state with retained_binding=" ++
      (if retained then lit "1" else lit "0"))
  match r.event with
  | .discover =>
    snapshotThen r state
      (reject (.native .duplicate, lit "discover duplicated an active source lifetime"))
  | .bind => if retained then notAllowed else bindTransition "bind requires active lifecycle" r state
  | .rebind =>
    if retained then bindTransition "rebind requires active lifecycle" r state else notAllowed
  | .observe =>
    if retained then
      snapshotThen r state
        (stale "retained binding is not current after update or rediscovery")
    else reject (.native .missing, lit "observe requires a retained binding")
  | .update | .exit => notAllowed

def exitedTransition (r : EventRow) (state : ReplayState) : Transition :=
  match r.event with
  | .observe | .update | .bind =>
    snapshotThen r state
      (stale "event targets an exited source with a retained old binding")
  | .discover => rediscoverTransition r state
  | .exit | .rebind =>
    reject (.stateTransition,
      lit "event " ++ quoted r.event.text ++ lit " is not allowed from exited state")

/-- `_transition_for_event`.  The `unhandled event` rejection at its end is for no state: the
bound state handles all six events. -/
def transitionForEvent (r : EventRow) (state : Option ReplayState) : Transition :=
  match state with
  | none => initialTransition r
  | some state =>
    match state.replayState with
    | .bound => boundTransition r state
    | .discovered => discoveredTransition r state
    | .exited => exitedTransition r state

end Transitions

end AiosKernel.Replay
