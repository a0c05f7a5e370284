/-
# `AiosKernel.Replay.Contract` — the binding-trace contract and its failures

The names and numbers of the checked-in `binding-trace-v1.contract.json`, which
`load_contract` of `tools/hosted/binding_trace_replay.py` insists on, and the
reasons and failures the verifier reports.
-/
import AiosKernel.Lib.PyJson

namespace AiosKernel.Replay

open Py

/-- What the verifier takes from its interpreter: how deeply the JSON decoder may nest, and
which characters `repr` prints as they are. -/
structure Interpreter where
  nestingLimit : Nat
  nestingLimit_pos : 0 < nestingLimit
  printable : Nat → Bool

/-! ## Enumerations -/

/-- The `event` enumeration. -/
inductive EventName where
  | discover
  | bind
  | observe
  | update
  | exit
  | rebind
  deriving DecidableEq, Repr

/-- The `claimed_outcome` enumeration. -/
inductive Outcome where
  | accepted
  | rejected
  deriving DecidableEq, Repr

/-- The `lifecycle_state` enumeration. -/
inductive Lifecycle where
  | active
  | exited
  deriving DecidableEq, Repr

/-- The `final_state` enumeration, and the `replay_state` of the verifier. -/
inductive ReplayPhase where
  | discovered
  | bound
  | exited
  deriving DecidableEq, Repr

/-- The `claimed_reason` enumeration, `NATIVE_REASON_ORDER`. -/
inductive NativeReason where
  | none
  | initOrder
  | missing
  | schema
  | malformed
  | overflow
  | duplicate
  | orphan
  | nameSpace
  | kind
  | role
  | inst
  | zeroGeneration
  | generationRollback
  | stale
  | tail
  deriving DecidableEq, Repr

def EventName.text : EventName → String
  | .discover => "discover"
  | .bind => "bind"
  | .observe => "observe"
  | .update => "update"
  | .exit => "exit"
  | .rebind => "rebind"

def Outcome.text : Outcome → String
  | .accepted => "accepted"
  | .rejected => "rejected"

def Lifecycle.text : Lifecycle → String
  | .active => "active"
  | .exited => "exited"

def ReplayPhase.text : ReplayPhase → String
  | .discovered => "discovered"
  | .bound => "bound"
  | .exited => "exited"

def NativeReason.text : NativeReason → String
  | .none => "none"
  | .initOrder => "init-order"
  | .missing => "missing"
  | .schema => "schema"
  | .malformed => "malformed"
  | .overflow => "overflow"
  | .duplicate => "duplicate"
  | .orphan => "orphan"
  | .nameSpace => "namespace"
  | .kind => "kind"
  | .role => "role"
  | .inst => "instance"
  | .zeroGeneration => "zero-generation"
  | .generationRollback => "generation-rollback"
  | .stale => "stale"
  | .tail => "tail"

def eventNames : List EventName := [.discover, .bind, .observe, .update, .exit, .rebind]
def outcomes : List Outcome := [.accepted, .rejected]
def lifecycles : List Lifecycle := [.active, .exited]
def replayPhases : List ReplayPhase := [.discovered, .bound, .exited]
def nativeReasons : List NativeReason :=
  [.none, .initOrder, .missing, .schema, .malformed, .overflow, .duplicate, .orphan, .nameSpace,
    .kind, .role, .inst, .zeroGeneration, .generationRollback, .stale, .tail]

def nativeValidationPrecedence : List NativeReason :=
  [.initOrder, .missing, .malformed, .schema, .overflow, .zeroGeneration, .tail, .nameSpace,
    .orphan, .kind, .role, .inst, .stale, .generationRollback, .duplicate]

/-- The member of an enumeration with the given text. -/
def ofText {α : Type} (text : α → String) (values : List α) (s : Str) : Option α :=
  values.find? fun v => lit (text v) == s

/-! ## Fields -/

/-- The names of the enumerations that a field can have. -/
inductive EnumName where
  | recordType
  | event
  | claimedOutcome
  | claimedReason
  | lifecycleState
  | finalState
  deriving DecidableEq, Repr

def EnumName.text : EnumName → String
  | .recordType => "record_type"
  | .event => "event"
  | .claimedOutcome => "claimed_outcome"
  | .claimedReason => "claimed_reason"
  | .lifecycleState => "lifecycle_state"
  | .finalState => "final_state"

/-- The members of `enums`. -/
def EnumName.values : EnumName → List String
  | .recordType => ["event", "terminal"]
  | .event => eventNames.map EventName.text
  | .claimedOutcome => outcomes.map Outcome.text
  | .claimedReason => nativeReasons.map NativeReason.text
  | .lifecycleState => lifecycles.map Lifecycle.text
  | .finalState => replayPhases.map ReplayPhase.text

inductive FieldType where
  | u32
  | flag
  | u64Decimal
  | traceId
  | kebabToken
  | enum (name : EnumName)
  deriving DecidableEq, Repr

/-- A field of a record: its name and type. -/
abbrev Field : Type := String × FieldType

/-- `records.event.fields_in_order`. -/
def eventFields : List Field :=
  [("schema_version", .u32), ("record_type", .enum .recordType), ("trace_id", .traceId),
    ("trace_sequence", .u32), ("host_instance", .u64Decimal), ("event", .enum .event),
    ("claimed_outcome", .enum .claimedOutcome), ("claimed_reason", .enum .claimedReason),
    ("canonical_namespace", .kebabToken), ("canonical_id", .u64Decimal),
    ("canonical_kind", .kebabToken), ("canonical_generation", .u64Decimal),
    ("canonical_valid", .flag), ("parent_cell_id", .u64Decimal),
    ("parent_generation", .u64Decimal), ("parent_valid", .flag),
    ("producer_instance", .u64Decimal), ("producer_owned", .flag), ("copied_read", .flag),
    ("source_namespace", .kebabToken), ("source_id", .u64Decimal),
    ("source_instance", .u64Decimal), ("source_generation", .u64Decimal),
    ("source_kind", .kebabToken), ("source_role", .kebabToken), ("source_valid", .flag),
    ("bound_source_instance", .u64Decimal), ("bound_source_generation", .u64Decimal),
    ("binding_generation", .u64Decimal), ("binding_valid", .flag), ("binding_current", .flag),
    ("kind_match", .flag), ("role_match", .flag), ("generation_valid", .flag),
    ("lifecycle_state", .enum .lifecycleState), ("lifecycle_valid", .flag),
    ("observed_at_ns", .u64Decimal), ("observed_at_valid", .flag), ("observation_only", .flag),
    ("management_only", .flag)]

/-- `records.terminal.fields_in_order`. -/
def terminalFields : List Field :=
  [("schema_version", .u32), ("record_type", .enum .recordType), ("trace_id", .traceId),
    ("trace_sequence", .u32), ("host_instance", .u64Decimal), ("producer_instance", .u64Decimal),
    ("record_count", .u32), ("accepted_count", .u32), ("rejected_count", .u32),
    ("final_state", .enum .finalState), ("final_binding_generation", .u64Decimal),
    ("observation_only", .flag), ("management_only", .flag)]

def constants : List (String × Int) :=
  [("schema_version", 1), ("observation_only", 1), ("management_only", 1)]

/-! ## Transport and target -/

def MAX_TOTAL_BYTES : Nat := 262144
def MAX_LINE_BYTES : Nat := 4096
def MAX_RECORDS : Nat := 64
def ALLOWED_LINE_ENDINGS : List String := ["lf", "crlf"]
def BOM_ALLOWED : Bool := false
def BLANK_LINES_ALLOWED : Bool := false
def U32_MAX : Int := 2 ^ 32 - 1
def U64_MAX : Nat := 2 ^ 64 - 1

/-- `trusted_target_v1`, the members the replay reads. -/
structure Target where
  canonicalNamespace : String
  canonicalId : String
  canonicalKind : String
  canonicalGeneration : Nat
  parentCellId : String
  parentGeneration : Nat
  sourceNamespace : String
  sourceKind : String
  sourceRole : String
  nativeSourceId : String
  initialSourceGeneration : Nat

def target : Target where
  canonicalNamespace := "node"
  canonicalId := "101"
  canonicalKind := "ai-service"
  canonicalGeneration := 1
  parentCellId := "1"
  parentGeneration := 1
  sourceNamespace := "native-slm-agent-tree"
  sourceKind := "ai-service"
  sourceRole := "main"
  nativeSourceId := "1"
  initialSourceGeneration := 1

/-! ## Failures -/

/-- The reasons of a failure: those of `TRACE_REASON_REGISTRY`, and the native ones. -/
inductive Reason where
  | io
  | limit
  | encoding
  | truncated
  | syntaxError
  | dupKey
  | missingField
  | unknownField
  | type
  | range
  | sequence
  | traceId
  | event
  | outcome
  | terminal
  | hostInstance
  | producerInstance
  | sourceReuse
  | stateTransition
  | fixtureMismatch
  | native (reason : NativeReason)
  deriving DecidableEq, Repr

/-- `reason.startswith("trace.")`. -/
def Reason.isTrace : Reason → Bool
  | .native _ => false
  | _ => true

def nativeReasonRank : Reason → Nat
  | .native reason => nativeValidationPrecedence.idxOf reason
  | _ => nativeValidationPrecedence.length

inductive Phase where
  | raw
  | json
  | shape
  | envelope
  | semantic
  deriving DecidableEq, Repr

def Phase.number : Phase → Nat
  | .raw => 1
  | .json => 2
  | .shape => 3
  | .envelope => 4
  | .semantic => 5

/-- The computed and claimed results of a semantic failure. -/
structure Results where
  computedOutcome : Outcome
  computedReason : Reason
  claimedOutcome : Outcome
  claimedReason : NativeReason
  deriving DecidableEq, Repr

structure Failure where
  phase : Phase
  reason : Reason
  line : Option Nat
  sequence : Option Int
  detail : Str
  results : Option Results
  deriving DecidableEq, Repr

/-- A failure without computed results. -/
def fail (phase : Phase) (reason : Reason) (line : Option Nat) (sequence : Option Int)
    (detail : Str) : Failure := ⟨phase, reason, line, sequence, detail, none⟩

end AiosKernel.Replay
