/-
# `AiosKernel.Replay.Transport` — phases 1 to 4 of the verifier

From bytes to checked records: `_phase_raw`, `_phase_json`, `_phase_shape` and
`_phase_envelope` of `tools/hosted/binding_trace_replay.py`, each with the list
of its failures in the order the code appends them.  Lines and records are
numbered from 1.
-/
import AiosKernel.Replay.Contract

namespace AiosKernel.Replay

open Py

/-! ## Phase 1: bytes to lines -/

/-- The loop body of `_phase_raw` that strips one line's terminator: the content and the
failures of its line ending. -/
def stripLineEnding (terminated : Bool) (index : Nat) (line : List UInt8) :
    List UInt8 × List Failure :=
  let encoding (what : String) : Failure :=
    fail .raw .encoding (some index) none (lit "line " ++ dec index ++ lit what)
  let crlf := terminated && line.getLast? == some 13
  let content := if crlf then line.dropLast else line
  let terminator :=
    if crlf then
      if ALLOWED_LINE_ENDINGS.contains "crlf" then []
      else [encoding " uses a CRLF terminator that is not allowed"]
    else if terminated && !ALLOWED_LINE_ENDINGS.contains "lf" then
      [encoding " uses an LF terminator that is not allowed"]
    else []
  let bare :=
    if content.contains 13 then [encoding " contains a bare CR outside its line terminator"]
    else []
  (content, terminator ++ bare)

/-- One decoded line of `_phase_raw`; a line that does not decode counts as empty. -/
def decodeLine (index : Nat) (line : List UInt8) : Str × List Failure :=
  if !BOM_ALLOWED && [0xEF, 0xBB, 0xBF].isPrefixOf line then
    ([], [fail .raw .encoding (some index) none
      (lit "line " ++ dec index ++ lit " starts with a UTF-8 BOM; BOM is not allowed")])
  else
    match decodeUtf8 line with
    | some text => (text, [])
    | none => ([], [fail .raw .encoding (some index) none
        (lit "line " ++ dec index ++ lit " is not valid UTF-8")])

/-- The lines of a file: what `raw.split(b"\n")` gives, without the piece after a final
newline. -/
def rawLines (raw : List UInt8) : List (List UInt8) :=
  if raw.getLast? == some 10 then (split 10 raw).dropLast else split 10 raw

/-- The contents of the lines of a file, with the failures of their endings. -/
def contentsOf (raw : List UInt8) : List (List UInt8 × List Failure) :=
  let pieces := rawLines raw
  pieces.zipIdx.map fun (line, i) =>
    stripLineEnding (raw.getLast? == some 10 || i < pieces.length - 1) (i + 1) line

/-- The limit failures of `_phase_raw` on its lines. -/
def limitFailures (contents : List (List UInt8)) : List Failure :=
  (if contents.length > MAX_RECORDS then
    [fail .raw .limit (some (MAX_RECORDS + 1)) none
      (lit "record count " ++ dec contents.length ++ lit " exceeds " ++ dec MAX_RECORDS)]
  else []) ++
  (contents.zipIdx 1).flatMap fun (line, index) =>
    if line.length > MAX_LINE_BYTES then
      [fail .raw .limit (some index) none
        (lit "line " ++ dec index ++ lit " has " ++ dec line.length ++ lit " bytes, limit " ++
          dec MAX_LINE_BYTES)]
    else []

def phaseRaw (raw : List UInt8) : List Str × List Failure :=
  if raw.isEmpty then ([], [fail .raw .io none none (lit "empty trace")])
  else if raw.length > MAX_TOTAL_BYTES then
    ([], [fail .raw .limit none none
      (lit "total size " ++ dec raw.length ++ lit " exceeds " ++ dec MAX_TOTAL_BYTES)])
  else
    let parts := contentsOf raw
    let contents := parts.map Prod.fst
    let limits := limitFailures contents
    if !limits.isEmpty then ([], limits)
    else
      let decoded := (contents.zipIdx 1).map fun (line, index) => decodeLine index line
      let truncated :=
        if raw.getLast? == some 10 then []
        else [fail .raw .truncated (some contents.length) none (lit "final newline missing")]
      (decoded.map Prod.fst,
        parts.flatMap Prod.snd ++ decoded.flatMap Prod.snd ++ truncated)

/-! ## Phase 2: lines to values -/

/-- The first key that occurs a second time. -/
def firstDuplicate : List Str → List (Str × Json) → Option Str
  | _, [] => none
  | seen, (key, _) :: rest =>
    if seen.contains key then some key else firstDuplicate (key :: seen) rest

/-- `_object_without_duplicate_keys` and `_reject_nonfinite_json`. -/
def strictHooks : Hooks where
  pairs kvs :=
    match firstDuplicate [] kvs with
    | some key => .error (.hook (lit "duplicate JSON key: " ++ key))
    | none => .ok (.obj kvs)
  constant token := .error (.hook (lit "non-finite JSON token is forbidden: " ++ lit token))

/-- `_decode_strict_json`, with the text of the `ValueError`. -/
def decodeStrictJson (interp : Interpreter) (text : Str) : Except Str Json :=
  match loads strictHooks interp.nestingLimit text with
  | .ok v => .ok v
  | .error .recursion => .error (lit "JSON nesting exceeds decoder limit")
  | .error e => .error (e.text text)

/-- One line of `_phase_json`; a line that does not decode counts as `None`. -/
def jsonLine (interp : Interpreter) (index : Nat) (text : Str) : Json × List Failure :=
  if !BLANK_LINES_ALLOWED && (strip text).isEmpty then
    (.null, [fail .json .syntaxError (some index) none (lit "blank line")])
  else
    match decodeStrictJson interp text with
    | .ok v => (v, [])
    | .error message =>
      if (lit "duplicate JSON key:").isPrefixOf message then
        (.null, [fail .json .dupKey (some index) none message])
      else
        (.null, [fail .json .syntaxError (some index) none
          (message.map fun c => if c = 10 then 32 else c)])

def phaseJson (interp : Interpreter) (lines : List Str) : List Json × List Failure :=
  let rows := (lines.zipIdx 1).map fun (text, index) => jsonLine interp index text
  (rows.map Prod.fst, rows.flatMap Prod.snd)

/-! ## Phase 3: the shape of a record -/

abbrev Dict : Type := List (Str × Json)

/-- `record.get(name)`. -/
def getField (d : Dict) (name : String) : Option Json := d.lookup (lit name)

/-- `type(value).__name__`. -/
def typeName : Json → String
  | .null => "NoneType"
  | .bool _ => "bool"
  | .int _ => "int"
  | .float _ => "float"
  | .str _ => "str"
  | .arr _ => "list"
  | .obj _ => "dict"

/-- `_sequence_of` of an object. -/
def sequenceOf (d : Dict) : Option Int :=
  match getField d "trace_sequence" with
  | some (.int n) => if 0 ≤ n ∧ n ≤ U32_MAX then some n else none
  | _ => none

def u64Pattern (s : Str) : Bool :=
  match s with
  | [48] => true
  | c :: rest => 49 ≤ c && c ≤ 57 && rest.all isDigit && decide (rest.length ≤ 19)
  | [] => false

def isLowerAlnum (c : Nat) : Bool := (97 ≤ c && c ≤ 122) || isDigit c

/-- The `kebab-token` pattern: runs of lower-case letters and digits between single dashes. -/
def kebabPattern (s : Str) : Bool :=
  (split 45 s).all fun segment => !segment.isEmpty && segment.all isLowerAlnum

def traceIdPattern (s : Str) : Bool := decide (s.length ≤ 64) && kebabPattern s

section Shape

variable (interp : Interpreter)

/-- A failure of phase 3, whose line and sequence the caller fills in. -/
def shapeFailure (reason : Reason) (detail : Str) : Failure := fail .shape reason none none detail

/-- The string scalars of `_check_scalar` other than `u64-decimal`. -/
def checkPattern (name : String) (spec : String) (pattern : Str → Bool) (value : Json) :
    Option Failure :=
  match value with
  | .str s =>
    if pattern s then none
    else some (shapeFailure .type (lit name ++ lit " value " ++ repr interp.printable s ++
      lit " violates " ++ lit spec ++ lit " pattern"))
  | v => some (shapeFailure .type
      (lit name ++ lit " must be a string, got " ++ lit (typeName v)))

/-- The integer scalars of `_check_scalar`. -/
def checkInteger (name : String) (maximum : Int) (value : Json) : Option Failure :=
  match value with
  | .bool _ => some (shapeFailure .type (lit name ++ lit " must be an integer, got boolean"))
  | .int n =>
    if n < 0 ∨ n > maximum then
      some (shapeFailure .range (lit name ++ lit " value " ++ decInt n ++ lit " outside [0, " ++
        decInt maximum ++ lit "]"))
    else none
  | v => some (shapeFailure .type
      (lit name ++ lit " must be an integer, got " ++ lit (typeName v)))

/-- The `u64-decimal` branch of `_check_scalar`. -/
def checkU64 (name : String) (value : Json) : Option Failure :=
  match value with
  | .str s =>
    if !u64Pattern s then
      some (shapeFailure .range (lit name ++ lit " value " ++ repr interp.printable s ++
        lit " violates u64-decimal format"))
    else if decValue s > U64_MAX then
      some (shapeFailure .range (lit name ++ lit " value " ++ repr interp.printable s ++
        lit " exceeds u64 range"))
    else none
  | v => some (shapeFailure .type
      (lit name ++ lit " must be a decimal string, got " ++ lit (typeName v)))

/-- The reason `_enum_failure` gives for a value outside the enumeration. -/
def enumReason : EnumName → Reason
  | .recordType | .event => .event
  | .claimedOutcome | .claimedReason => .outcome
  | .lifecycleState | .finalState => .type

def enumFailure (name : String) (enumName : EnumName) (value : Json) : Option Failure :=
  match value with
  | .str s =>
    if (enumName.values.map lit).contains s then none
    else some (shapeFailure (enumReason enumName) (lit name ++ lit " value " ++
      repr interp.printable s ++ lit " not in " ++ lit enumName.text ++ lit " enum"))
  | v => some (shapeFailure .type
      (lit name ++ lit " must be a string, got " ++ lit (typeName v)))

def checkConstant (name : String) (value : Json) : Option Failure :=
  match constants.lookup name with
  | none => none
  | some expected =>
    match value with
    | .int n =>
      if n = expected then none
      else some (shapeFailure .range (lit name ++ lit " must equal " ++ decInt expected))
    | _ => some (shapeFailure .range (lit name ++ lit " must equal " ++ decInt expected))

/-- The check of one field: its type, and then its constant. -/
def checkField (field : Field) (value : Json) : Option Failure :=
  let typed :=
    match field.2 with
    | .u32 => checkInteger field.1 U32_MAX value
    | .flag => checkInteger field.1 1 value
    | .u64Decimal => checkU64 interp field.1 value
    | .traceId => checkPattern interp field.1 "trace-id" traceIdPattern value
    | .kebabToken => checkPattern interp field.1 "kebab-token" kebabPattern value
    | .enum enumName => enumFailure interp field.1 enumName value
  typed.or (checkConstant field.1 value)

def schemaOf (recordType : Str) : Option (List Field) :=
  if recordType = lit "event" then some eventFields
  else if recordType = lit "terminal" then some terminalFields
  else none

/-- The nested containers of a record, one failure each. -/
def nestedFailures (d : Dict) : List Failure :=
  d.filterMap fun (name, value) =>
    match value with
    | .obj _ => some (shapeFailure .type
        (name ++ lit " contains a nested object; flat records only"))
    | .arr _ => some (shapeFailure .type
        (name ++ lit " contains an array; arrays are forbidden"))
    | _ => none

/-- The fields of a schema that the record lacks, in the schema's order. -/
def missingFields (schema : List Field) (d : Dict) : List Str :=
  (schema.map fun f => lit f.1).filter fun name => !(d.map Prod.fst).contains name

/-- The fields of the record that the schema lacks, sorted. -/
def unknownFields (schema : List Field) (d : Dict) : List Str :=
  ((d.map Prod.fst).filter fun name => !(schema.map fun f => lit f.1).contains name).mergeSort
    fun a b => decide (a ≤ b)

/-- The failures of a record against the schema of its type. -/
def schemaFailures (schema : List Field) (d : Dict) : List Failure :=
  let missing := missingFields schema d
  let unknown := unknownFields schema d
  (if missing.isEmpty then []
    else [shapeFailure .missingField (lit "missing fields: " ++ join (lit ", ") missing)]) ++
  (if unknown.isEmpty then []
    else [shapeFailure .unknownField (lit "unknown fields: " ++ join (lit ", ") unknown)]) ++
  (if missing.isEmpty then
    schema.filterMap (fun field =>
      match getField d field.1 with
      | some value => checkField interp field value
      | none => none) ++ nestedFailures d
  else [])

/-- The failures of one record in `_phase_shape`, without line and sequence. -/
def recordFailures (record : Json) : List Failure :=
  match record with
  | .obj d =>
    match getField d "record_type" with
    | none => [shapeFailure .missingField (lit "missing fields: record_type")]
    | some (.str recordType) =>
      match schemaOf recordType with
      | none => [shapeFailure .event (lit "record_type value " ++
          repr interp.printable recordType ++ lit " not in record_type enum")]
      | some schema => schemaFailures interp schema d
    | some v => [shapeFailure .type
        (lit "record_type must be a string, got " ++ lit (typeName v))]
  | _ => [shapeFailure .type (lit "record must be a flat JSON object")]

/-- `_sequence_of` of any value. -/
def recordSequence : Json → Option Int
  | .obj d => sequenceOf d
  | _ => none

def phaseShape (records : List Json) : List Failure :=
  (records.zipIdx 1).flatMap fun (record, row) =>
    (recordFailures interp record).map fun f =>
      { f with line := some row, sequence := recordSequence record }

end Shape

/-! ## Phase 4: the envelope of a trace -/

def outcomePairing : List (Str × List Str) :=
  [(lit "accepted", [lit "none"]),
    (lit "rejected", (nativeReasons.filter (· != .none)).map fun r => lit r.text)]

/-- The failures of one record in the loop of `_phase_envelope`; `expected` is the trace id of
the records before it. -/
def envelopeRecord (interp : Interpreter) (row : Nat) (expected : Option Str) (d : Dict) :
    List Failure :=
  let sequence := sequenceOf d
  let envelope (reason : Reason) (detail : Str) : Failure :=
    fail .envelope reason (some row) sequence detail
  let sequenceFailures :=
    if sequence = some (row : Int) then []
    else [envelope .sequence (lit "trace_sequence " ++
      (match sequence with | some n => decInt n | none => lit "None") ++
      lit " must equal record position " ++ dec row)]
  let traceIdFailures :=
    match getField d "trace_id", expected with
    | some (.str traceId), some first =>
      if traceId = first then []
      else [envelope .traceId (lit "trace_id " ++ repr interp.printable traceId ++
        lit " must remain " ++ repr interp.printable first)]
    | _, _ => []
  let outcomeFailures :=
    match getField d "claimed_outcome", getField d "claimed_reason" with
    | some (.str outcome), some (.str reason) =>
      match outcomePairing.lookup outcome with
      | some allowed =>
        if allowed.contains reason then []
        else [envelope .outcome (lit "claimed_outcome " ++ repr interp.printable outcome ++
          lit " does not allow claimed_reason " ++ repr interp.printable reason)]
      | none => []
    | _, _ => []
  sequenceFailures ++ traceIdFailures ++ outcomeFailures

/-- The trace id that later records are held to. -/
def nextTraceId (expected : Option Str) (record : Json) : Option Str :=
  match expected, record with
  | none, .obj d =>
    match getField d "trace_id" with
    | some (.str traceId) => some traceId
    | _ => none
  | expected, _ => expected

/-- The loop of `_phase_envelope` from the given row on. -/
def envelopeRecords (interp : Interpreter) : Nat → Option Str → List Json → List Failure
  | _, _, [] => []
  | row, expected, record :: rest =>
    (match record with
      | .obj d => envelopeRecord interp row expected d
      | _ => []) ++ envelopeRecords interp (row + 1) (nextTraceId expected record) rest

def isTerminal : Json → Bool
  | .obj d =>
    match getField d "record_type" with
    | some (.str recordType) => recordType == lit "terminal"
    | _ => false
  | _ => false

def isEvent : Json → Bool
  | .obj d =>
    match getField d "record_type" with
    | some (.str recordType) => recordType == lit "event"
    | _ => false
  | _ => false

/-- An integer field, for the counts of a terminal. -/
def getInt (d : Dict) (name : String) : Option Int :=
  match getField d name with
  | some (.int n) => some n
  | _ => none

/-- The arithmetic of a terminal in `_phase_envelope`. -/
def terminalCounts (row : Nat) (d : Dict) (eventRows : Nat) : List Failure :=
  let sequence := sequenceOf d
  let terminal (detail : Str) : Failure := fail .envelope .terminal (some row) sequence detail
  match getInt d "record_count" with
  | none => []
  | some recordCount =>
    (if recordCount = eventRows then []
      else [terminal (lit "terminal record_count " ++ decInt recordCount ++
        lit " does not match " ++ dec eventRows ++ lit " event rows")]) ++
    (match sequence with
      | some n =>
        if n = recordCount + 1 then []
        else [terminal (lit "terminal trace_sequence " ++ decInt n ++
          lit " must equal record_count+1 (" ++ decInt (recordCount + 1) ++ lit ")")]
      | none => []) ++
    (match getInt d "accepted_count", getInt d "rejected_count" with
      | some accepted, some rejected =>
        if accepted + rejected = recordCount then []
        else [terminal (lit "accepted_count " ++ decInt accepted ++
          lit " + rejected_count " ++ decInt rejected ++ lit " does not equal record_count " ++
          decInt recordCount)]
      | _, _ => [])

/-- The terminal part of `_phase_envelope`. -/
def terminalFailures (records : List Json) : List Failure :=
  let terminal (row : Nat) (detail : Str) : Failure :=
    fail .envelope .terminal (some row) none detail
  match (records.zipIdx 1).filter fun (record, _) => isTerminal record with
  | [] => [terminal records.length (lit "terminal record missing")]
  | (first, row) :: others =>
    (match others with
      | [] => []
      | (_, extra) :: _ => [terminal extra (lit "expected exactly one terminal record, found " ++
          dec (others.length + 1))]) ++
    (if row ≠ records.length then [terminal (row + 1) (lit "terminal must be the last record")]
    else
      match first with
      | .obj d => terminalCounts row d (records.length - 1)
      | _ => [])

def phaseEnvelope (interp : Interpreter) (records : List Json) : List Failure :=
  envelopeRecords interp 1 none records ++ terminalFailures records

end AiosKernel.Replay
