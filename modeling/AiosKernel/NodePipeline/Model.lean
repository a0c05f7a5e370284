/-
# `AiosKernel.NodePipeline.Model` — the pipeline registry of `kernel/runtime/node_pipeline.c`

A pipeline is a chain of stages owned by a node.  Each section of the file under
`g_lock` is a function on the registry here; a call is a thread that goes through
its sections one by one, with `nodebit_evaluate` before the first, so calls of
several nodes interleave at these points.  `node_pipeline_execute` has two
sections, and walks the stages it copied in between without the lock.
-/
import AiosKernel.Nodebit.Model
import AiosKernel.Lib.Interleave

namespace AiosKernel.NodePipeline

open Word
open Nodebit (NODEBIT_CAP_PIPELINE)

def NODE_PIPELINE_MAX : Nat := 16
def NODE_PIPELINE_MAX_STAGES : Nat := 8
def NODE_PIPELINE_LABEL_MAX : Nat := 32

/-! ## The registry -/

structure Stage where
  modelId : Nat
  inputTensor : Nat
  outputTensor : Nat
  accelId : Nat
  deriving DecidableEq, Repr

inductive PipelineState where
  | free
  | opened
  | ready
  deriving DecidableEq, Repr

structure Pipeline where
  pipelineId : Nat
  ownerNode : Nat
  state : PipelineState
  label : String
  stageCount : Nat
  stages : List Stage
  executions : Nat
  lastStatus : AiosStatus
  lastExecNs : Nat
  createdTsNs : Nat
  deriving DecidableEq, Repr

structure ExecResult where
  executedStages : Nat
  durationNs : Nat
  status : AiosStatus
  deriving DecidableEq, Repr

structure State where
  pipelines : List Pipeline
  ready : Bool
  nextId : Nat
  totalExecutions : Nat
  totalStageRuns : Nat
  deniedCount : Nat
  lastStatus : AiosStatus
  deriving DecidableEq, Repr

def Stage.zero : Stage := ⟨0, 0, 0, 0⟩

def Pipeline.zero : Pipeline where
  pipelineId := 0
  ownerNode := 0
  state := .free
  label := ""
  stageCount := 0
  stages := List.replicate NODE_PIPELINE_MAX_STAGES Stage.zero
  executions := 0
  lastStatus := .ok
  lastExecNs := 0
  createdTsNs := 0

def init : State where
  pipelines := List.replicate NODE_PIPELINE_MAX Pipeline.zero
  ready := true
  nextId := 1
  totalExecutions := 0
  totalStageRuns := 0
  deniedCount := 0
  lastStatus := .ok

def Pipeline.live (p : Pipeline) : Bool := p.state != .free

def findPipelineLocked (s : State) (pipelineId : Nat) : Option Nat :=
  if pipelineId = 0 then none
  else s.pipelines.findIdx? fun p => p.live && p.pipelineId == pipelineId

def findFreeSlotLocked (s : State) : Option Nat := s.pipelines.findIdx? fun p => p.state == .free

def copyLabel (src : String) : String :=
  String.ofList (src.toList.take (NODE_PIPELINE_LABEL_MAX - 1))

/-- `stage_valid`, given what `accel_get_count` returns. -/
def stageValid (accelCount : Nat) (stage : Stage) : Bool := decide (stage.accelId < accelCount)

/-- The refusal of a call: `g_denied_count++`. -/
def State.deny (s : State) : State := { s with deniedCount := u32 (s.deniedCount + 1) }

/-! ## The sections under the lock -/

/-- The section of `node_pipeline_create`; returns the status and the new id. -/
def createLocked (nodeId : Nat) (label : String) (nowNs : Nat) (s : State) :
    (AiosStatus × Option Nat) × State :=
  match findFreeSlotLocked s with
  | none => ((.errNomem, none), s)
  | some slot =>
    let pipeline := { Pipeline.zero with
      pipelineId := s.nextId
      ownerNode := nodeId
      state := .opened
      createdTsNs := nowNs
      lastStatus := .ok
      label := copyLabel label }
    ((.ok, some s.nextId),
      { s with pipelines := s.pipelines.set slot pipeline, nextId := u32 (s.nextId + 1) })

/-- The section of `node_pipeline_add_stage`. -/
def addStageLocked (nodeId pipelineId : Nat) (stage : Stage) (s : State) : AiosStatus × State :=
  match findPipelineLocked s pipelineId with
  | none => (.errNodev, s)
  | some slot =>
    let pipeline := s.pipelines.getD slot Pipeline.zero
    if pipeline.ownerNode ≠ nodeId then (.errPerm, s.deny)
    else if NODE_PIPELINE_MAX_STAGES ≤ pipeline.stageCount then (.errNomem, s)
    else
      (.ok, { s with pipelines := s.pipelines.set slot { pipeline with
        stages := pipeline.stages.set pipeline.stageCount stage
        stageCount := pipeline.stageCount + 1
        state := .ready } })

/-- The first section of `node_pipeline_execute`: the stages to run, or the status it returns. -/
def snapshotLocked (nodeId pipelineId : Nat) (s : State) : Except AiosStatus (List Stage) × State :=
  match findPipelineLocked s pipelineId with
  | none => (.error .errNodev, s)
  | some slot =>
    let pipeline := s.pipelines.getD slot Pipeline.zero
    if pipeline.ownerNode ≠ nodeId then (.error .errPerm, s.deny)
    else if pipeline.state ≠ .ready ∨ pipeline.stageCount = 0 then (.error .errBusy, s)
    else (.ok (pipeline.stages.take pipeline.stageCount), s)

/-- The section of `node_pipeline_execute` after a stage that is no longer valid. -/
def failLocked (pipelineId : Nat) (s : State) : State :=
  let s := match findPipelineLocked s pipelineId with
    | none => s
    | some slot => { s with
        pipelines := s.pipelines.modify slot fun p => { p with lastStatus := .errAccel } }
  { s with lastStatus := .errAccel }

/-- The section of `node_pipeline_execute` after all stages. -/
def commitLocked (pipelineId stageCount durationNs : Nat) (s : State) : State :=
  let s := match findPipelineLocked s pipelineId with
    | none => s
    | some slot => { s with pipelines := s.pipelines.modify slot fun p => { p with
        executions := u64 (p.executions + 1)
        lastStatus := .ok
        lastExecNs := durationNs } }
  { s with
    totalExecutions := u64 (s.totalExecutions + 1)
    totalStageRuns := u64 (s.totalStageRuns + stageCount)
    lastStatus := .ok }

/-- The section of `node_pipeline_destroy`. -/
def destroyLocked (nodeId pipelineId : Nat) (s : State) : AiosStatus × State :=
  match findPipelineLocked s pipelineId with
  | none => (.errNodev, s)
  | some slot =>
    let pipeline := s.pipelines.getD slot Pipeline.zero
    if pipeline.ownerNode ≠ nodeId then (.errPerm, s.deny)
    else (.ok, { s with pipelines := s.pipelines.set slot Pipeline.zero })

/-- The walk of `node_pipeline_execute` over its copy of the stages, from the `i`-th on: how many
it executes before one that is not valid.  The accelerators are counted anew at each stage. -/
def walkStages (accelCount : Nat → Nat) (i : Nat) : List Stage → Nat
  | [] => 0
  | stage :: stages =>
    if stageValid (accelCount i) stage then walkStages accelCount (i + 1) stages + 1 else 0

/-! ## Calls -/

/-- What is asked for; null pointers are `none`, or `false` where only null is looked at. -/
inductive Op where
  | create (label : Option String) (hasOut : Bool)
  | addStage (pipelineId : Nat) (stage : Option Stage)
  | execute (pipelineId : Nat) (hasOut : Bool)
  | destroy (pipelineId : Nat)
  deriving DecidableEq, Repr

/-- A call, with the node it is made for. -/
structure Call where
  nodeId : Nat
  op : Op
  deriving DecidableEq, Repr

/-- What a call returns, and what it leaves behind its out pointers. -/
structure Reply where
  status : AiosStatus
  pipelineIdOut : Option Nat
  resultOut : Option ExecResult
  deriving DecidableEq, Repr

/-- How far a call has come: its checks, the gate, the count of a refusal, its section, and for an
execution the walk, the second section and the report to the node. -/
inductive Progress where
  | entry
  | gate
  | refused
  | permitted
  | walking (pipelineId : Nat) (stages : List Stage)
  | failing (pipelineId executed durationNs : Nat)
  | finishing (pipelineId stageCount durationNs : Nat)
  | observing (stageCount durationNs : Nat)
  | returned (reply : Reply)
  deriving DecidableEq, Repr

structure Thread where
  call : Call
  progress : Progress
  deriving DecidableEq, Repr

/-- What a step finds: the health of the kernel, the clock before and after, and the number of
accelerators at each time it is asked for. -/
structure Env where
  health : Health.Summary
  startNs : Nat
  endNs : Nat
  accelCount : Nat → Nat

/-- The policy gate and the registry. -/
structure Kernel where
  nodebit : Nodebit.State
  pipe : State

/-- A call that returns only a status. -/
def Progress.status (status : AiosStatus) : Progress := .returned ⟨status, none, none⟩

/-- The checks a call makes before the gate; `none` if it passes them. -/
def Call.check (accelCount : Nat) (s : State) (c : Call) : Option AiosStatus :=
  match c.op with
  | .create label hasOut => if !s.ready || label.isNone || !hasOut then some .errInval else none
  | .addStage _ stage =>
    if !s.ready || stage.isNone then some .errInval
    else if !stageValid accelCount (stage.getD Stage.zero) then some .errAccel
    else none
  | .execute _ _ => if !s.ready then some .errInval else none
  | .destroy _ => if !s.ready then some .errInval else none

/-- The result is written if there is a place for it. -/
def Call.result (c : Call) (r : ExecResult) : Option ExecResult :=
  match c.op with
  | .execute _ hasOut => if hasOut then some r else none
  | _ => none

/-- The section a call enters once it is permitted. -/
def Call.enter (c : Call) (nowNs : Nat) (s : State) : Progress × State :=
  match c.op with
  | .create label _ =>
    let ((status, id), s) := createLocked c.nodeId (label.getD "") nowNs s
    (.returned ⟨status, id, none⟩, s)
  | .addStage pipelineId stage =>
    let (status, s) := addStageLocked c.nodeId pipelineId (stage.getD Stage.zero) s
    (.status status, s)
  | .execute pipelineId _ =>
    let (found, s) := snapshotLocked c.nodeId pipelineId s
    match found with
    | .error status => (.status status, s)
    | .ok stages => (.walking pipelineId stages, s)
  | .destroy pipelineId =>
    let (status, s) := destroyLocked c.nodeId pipelineId s
    (.status status, s)

def Call.next (c : Call) (env : Env) (k : Kernel) : Progress → Progress × Kernel
  | .entry =>
    match c.check (env.accelCount 0) k.pipe with
    | some status => (.status status, k)
    | none => (.gate, k)
  | .gate =>
    let ((status, decision), nodebit) := Nodebit.evaluate c.nodeId NODEBIT_CAP_PIPELINE true
      env.health env.startNs env.endNs k.nodebit
    let k := { k with nodebit := nodebit }
    if status ≠ .ok ∨ decision.map (·.action) ≠ some .permit then (.refused, k)
    else (.permitted, k)
  | .refused => (.status .errPerm, { k with pipe := k.pipe.deny })
  | .permitted =>
    let (progress, pipe) := c.enter env.startNs k.pipe
    (progress, { k with pipe := pipe })
  | .walking pipelineId stages =>
    let executed := walkStages env.accelCount 0 stages
    let durationNs := sub64 env.endNs env.startNs
    if executed ≠ stages.length then (.failing pipelineId executed durationNs, k)
    else (.finishing pipelineId stages.length durationNs, k)
  | .failing pipelineId executed durationNs =>
    (.returned ⟨.errAccel, none, c.result ⟨executed, durationNs, .errAccel⟩⟩,
      { k with pipe := failLocked pipelineId k.pipe })
  | .finishing pipelineId stageCount durationNs =>
    (.observing stageCount durationNs,
      { k with pipe := commitLocked pipelineId stageCount durationNs k.pipe })
  | .observing stageCount durationNs =>
    (.returned ⟨.ok, none, c.result ⟨stageCount, durationNs, .ok⟩⟩,
      { k with nodebit := (Nodebit.observeWork c.nodeId durationNs k.nodebit).2 })
  | .returned reply => (.returned reply, k)

/-- Calls in progress.  Meanwhile others may use the gate, and register nodes and update them: its
state may become any other. -/
def machine : Interleave.Machine Kernel Thread Call Env Nodebit.State where
  fresh := fun c => ⟨c, .entry⟩
  advance := fun env k t =>
    let (progress, k) := t.call.next env k t.progress
    (⟨t.call, progress⟩, k)
  outside := fun nodebit k => { k with nodebit := nodebit }

end AiosKernel.NodePipeline
