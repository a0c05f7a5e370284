/-
# `AiosKernel.Syscall.Create` — the calls that create an object and hand out its id

`SYS_TENSOR_CREATE`, `SYS_MODEL_LOAD`, `SYS_INFER_RING_SETUP` and
`SYS_PIPE_CREATE` of `kernel/runtime/ai_syscall.c`.  Each enters its object into
a table of the kernel and copies the id out to the user last.

Three of them check the output buffer before they do anything, so that the copy
cannot fail any more.  `sys_pipe_create` does not: with a bad buffer it reports
an error, and the pipeline it has created stays, under an id its owner never got
(`Orphans`).
-/
import AiosKernel.UserAccess
import AiosKernel.Syscall.ModelRegistry
import AiosKernel.Syscall.InferRing
import AiosKernel.NodePipeline.Runs
import AiosKernel.Nodebit.Policy

namespace AiosKernel.Syscall

open TensorMm Slots Outcome
open AiosKernel.UserAccess (Window Accessible copyFromUser copyToUser copyToUser_eq
  copyStringFromUser setWindow syscallOutputBufferStatus
  syscallOutputBufferStatus_eq_ok userAccessProbe_ok_iff)
open Nodebit (NODEBIT_CAP_PIPELINE Permitted)
open NodePipeline (Pipeline NODE_PIPELINE_LABEL_MAX createLocked findFreeSlotLocked Kernel Env
  calm)

/-! ## User memory -/

/-- `syscall_model_load_t` as the user writes it. -/
structure UserModelLoad where
  path : Nat
  modelIdOut : Nat
  targetAccel : Nat
  dtype : Nat
  deriving DecidableEq, Repr

/-- `syscall_infer_ring_setup_t`. -/
structure UserRingSetup where
  registration : RingRegistration
  ringIdOut : Nat
  deriving DecidableEq, Repr

structure UserPipeCreate where
  nodeId : Nat
  label : List Char
  pipelineIdOut : Nat
  deriving DecidableEq, Repr

/-- What the handlers find at an address of user memory. -/
structure UserMemory where
  shapeAt : Nat → TensorShape
  modelLoadAt : Nat → UserModelLoad
  ringSetupAt : Nat → UserRingSetup
  pipeCreateAt : Nat → UserPipeCreate
  charAt : Nat → Char

/-! The sizes of the records on x86-64, and of the ids, which are all `uint32_t`. -/

def SIZEOF_TENSOR_SHAPE : Nat := 144
def SIZEOF_TENSOR_ALLOC : Nat := 192
def SIZEOF_MODEL_LOAD : Nat := 32
def SIZEOF_RING_SETUP : Nat := 64
def SIZEOF_PIPE_CREATE : Nat := 48
def SIZEOF_ID : Nat := 4

/-- `sizeof(model_registry[0].name)`. -/
def MODEL_NAME_SIZE : Nat := 64

/-! ## The handlers -/

def sysTensorCreate (w : Window) (mem : UserMemory) (beyond : Nat → Nat) (shape region out : Nat)
    (mm : MmState) : Outcome (AiosStatus × MmState) :=
  let status := copyFromUser w true shape SIZEOF_TENSOR_SHAPE
  if status ≠ .ok then .done (status, mm)
  else
    let status := syscallOutputBufferStatus w out SIZEOF_TENSOR_ALLOC
    if status ≠ .ok then .done (status, mm)
    else do
      let ((status, _), mm) ← tensorAlloc beyond (some (mem.shapeAt shape)) region true mm
      if status ≠ .ok then .done (status, mm)
      else .done (copyToUser w out true SIZEOF_TENSOR_ALLOC, mm)

def UserModelLoad.readPath (q : UserModelLoad) (w : Window) (mem : UserMemory) :
    Except AiosStatus String :=
  copyStringFromUser w mem.charAt true q.path MODEL_NAME_SIZE

/-- The request `sys_model_load` works on. -/
def UserModelLoad.request (q : UserModelLoad) (w : Window) (mem : UserMemory) : ModelLoad where
  path := if q.path = 0 then none else some ((q.readPath w mem).toOption.getD "")
  hasModelIdOut := q.modelIdOut != 0
  targetAccel := q.targetAccel
  dtype := q.dtype

/-- The accesses `sys_model_load` makes. -/
def modelLoadAccess (w : Window) (mem : UserMemory) (req : Nat) : UserAccess :=
  let q := mem.modelLoadAt req
  { request := copyFromUser w true req SIZEOF_MODEL_LOAD
    idBuffer := syscallOutputBufferStatus w q.modelIdOut SIZEOF_ID
    path := match q.readPath w mem with
      | .ok _ => .ok
      | .error status => status
    idCopy := copyToUser w q.modelIdOut true SIZEOF_ID }

/-- The accesses `sys_infer_ring_setup` makes. -/
def ringSetupAccess (w : Window) (mem : UserMemory) (req : Nat) : RingAccess :=
  let q := mem.ringSetupAt req
  { request := copyFromUser w true req SIZEOF_RING_SETUP
    idBuffer := syscallOutputBufferStatus w q.ringIdOut SIZEOF_ID
    idCopy := copyToUser w q.ringIdOut true SIZEOF_ID }

/-- `gate_check` of `kernel/runtime/node_pipeline.c`. -/
def gateCheck (env : Env) (nodeId : Nat) (k : Kernel) :
    AiosStatus × Kernel :=
  let ((status, decision), nodebit) := Nodebit.evaluate nodeId NODEBIT_CAP_PIPELINE true env.health
    env.startNs env.endNs k.nodebit
  let k := { k with nodebit := nodebit }
  if status ≠ .ok ∨ decision.map (·.action) ≠ some .permit then
    (.errPerm, { k with pipe := k.pipe.deny })
  else (.ok, k)

/-- `node_pipeline_create` with a label and an output, not interrupted; `nowNs` is the time it
writes into the pipeline. -/
def nodePipelineCreate (env : Env) (nowNs nodeId : Nat) (label : String)
    (k : Kernel) : (AiosStatus × Option Nat) × Kernel :=
  if !k.pipe.ready then ((.errInval, none), k)
  else
    let (status, k) := gateCheck env nodeId k
    if status ≠ .ok then ((status, none), k)
    else
      let (res, pipe) := createLocked nodeId label nowNs k.pipe
      (res, { k with pipe := pipe })

/-- The label up to its terminator, of which the handler makes sure. -/
def UserPipeCreate.labelText (q : UserPipeCreate) : String :=
  String.ofList ((q.label.take (NODE_PIPELINE_LABEL_MAX - 1)).takeWhile (· != Char.ofNat 0))

def sysPipeCreate (w : Window) (mem : UserMemory) (env : Env) (nowNs req : Nat)
    (k : Kernel) : AiosStatus × Kernel :=
  let status := copyFromUser w true req SIZEOF_PIPE_CREATE
  if status ≠ .ok then (status, k)
  else
    let q := mem.pipeCreateAt req
    let ((status, _), k) := nodePipelineCreate env nowNs q.nodeId q.labelText k
    if status ≠ .ok then (status, k)
    else (copyToUser w q.pipelineIdOut true SIZEOF_ID, k)

/-! ## Calls -/

/-- The user's window and the tables the four calls work on. -/
structure Tables where
  window : Window
  mm : MmState
  registry : Registry
  rings : List InferRing
  pipelines : Kernel

/-- What a call finds: user memory, what the gate does, the time, what lies behind a copied shape on
the stack, and fuel. -/
structure CreateEnv where
  memory : UserMemory
  gate : Env
  nowNs : Nat
  beyond : Nat → Nat
  fuel : Nat

/-- The calls, with the arguments the user passes. -/
inductive CreateCall where
  | tensorCreate (shape region out : Nat)
  | modelLoad (req : Nat)
  | inferRingSetup (req : Nat)
  | pipeCreate (req : Nat)
  deriving DecidableEq, Repr

def CreateCall.exec (env : CreateEnv) (c : CreateCall) (s : Tables) :
    Outcome (AiosStatus × Tables) :=
  match c with
  | .tensorCreate shape region out => do
    let (status, mm) ← sysTensorCreate s.window env.memory env.beyond shape region out s.mm
    .done (status, { s with mm := mm })
  | .modelLoad req => do
    let (status, _, mm, registry) ← sysModelLoad env.fuel
      (modelLoadAccess s.window env.memory req)
      ((env.memory.modelLoadAt req).request s.window env.memory) s.mm s.registry
    .done (status, { s with mm := mm, registry := registry })
  | .inferRingSetup req =>
    let q := env.memory.ringSetupAt req
    let (status, rings) := sysInferRingSetup (ringSetupAccess s.window env.memory req)
      (q.ringIdOut != 0) q.registration s.rings
    .done (status, { s with rings := rings })
  | .pipeCreate req =>
    let (status, pipelines) := sysPipeCreate s.window env.memory env.gate env.nowNs req s.pipelines
    .done (status, { s with pipelines := pipelines })

/-! ## Objects -/

/-- The entries of a table that are in use, each with its place. -/
def slots {α : Type} (table : List α) (used : α → Bool) : Set (Nat × α) :=
  {x | table[x.1]? = some x.2 ∧ used x.2 = true}

structure Objects where
  tensors : Set (Nat × TensorAlloc)
  models : Set (Nat × ModelInfo)
  rings : Set (Nat × InferRing)
  pipelines : Set (Nat × Pipeline)

def Tables.objects (s : Tables) : Objects where
  tensors := slots (live s.mm) fun _ => true
  models := slots s.registry.models fun m => m.loaded
  rings := slots s.rings fun ring => ring.registered
  pipelines := slots s.pipelines.pipe.pipelines Pipeline.live

/-! ## `node_pipeline_create` -/

section

variable {env : Env} {nowNs nodeId : Nat} {label : String} {k : Kernel}

/-- The thread that creates a pipeline. -/
def creation (nodeId : Nat) (label : String) : NodePipeline.Call :=
  ⟨nodeId, .create (some label) true⟩

def creationStep (nodeId : Nat) (label : String) (env : Env)
    (x : NodePipeline.Progress × Kernel) :
    NodePipeline.Progress × Kernel :=
  (creation nodeId label).next env x.2 x.1

/-- The gate lets a node through exactly if its policy permits pipelines. -/
theorem gateCheck_cases : ∃ nodebit,
    (k.nodebit.ready = true ∧ Permitted (k.nodebit.policy nodeId) NODEBIT_CAP_PIPELINE env.health) ∧
      gateCheck env nodeId k = (.ok, ⟨nodebit, k.pipe⟩) ∧
      creationStep nodeId label env (.gate, k) = (.permitted, ⟨nodebit, k.pipe⟩) ∨
    ¬ (k.nodebit.ready = true ∧ Permitted (k.nodebit.policy nodeId) NODEBIT_CAP_PIPELINE env.health) ∧
      gateCheck env nodeId k = (.errPerm, ⟨nodebit, k.pipe.deny⟩) ∧
      creationStep nodeId label env (.gate, k) = (.refused, ⟨nodebit, k.pipe⟩) := by
  have hiff := Nodebit.evaluate_permits_iff k.nodebit nodeId NODEBIT_CAP_PIPELINE env.health
    env.startNs env.endNs
  refine ⟨(Nodebit.evaluate nodeId NODEBIT_CAP_PIPELINE true env.health env.startNs env.endNs
    k.nodebit).2, ?_⟩
  by_cases hpermit :
      k.nodebit.ready = true ∧ Permitted (k.nodebit.policy nodeId) NODEBIT_CAP_PIPELINE env.health
  · have hopen := not_or.mpr ((hiff.mpr hpermit).imp not_not.mpr not_not.mpr)
    exact .inl ⟨hpermit, if_neg hopen, if_neg hopen⟩
  · have hclosed := not_and_or.mp fun h => hpermit (hiff.mp h)
    exact .inr ⟨hpermit, if_pos hclosed, if_pos hclosed⟩

theorem nodePipelineCreate_steps (env' : Env) :
    creationStep nodeId label env' (creationStep nodeId label env
      (creationStep nodeId label env (.entry, k))) =
      (.returned ⟨(nodePipelineCreate env env'.startNs nodeId label k).1.1,
        (nodePipelineCreate env env'.startNs nodeId label k).1.2, none⟩,
        (nodePipelineCreate env env'.startNs nodeId label k).2) := by
  cases hready : k.pipe.ready with
  | false =>
    simp [creationStep, creation, NodePipeline.Call.next, NodePipeline.Call.check,
      nodePipelineCreate, hready, NodePipeline.Progress.status]
  | true =>
    have hentry : creationStep nodeId label env (.entry, k) = (.gate, k) := by
      simp [creationStep, creation, NodePipeline.Call.next, NodePipeline.Call.check, hready]
    rw [hentry]
    obtain ⟨nodebit, ⟨-, hgate, hstep⟩ | ⟨-, hgate, hstep⟩⟩ := @gateCheck_cases env nodeId label k
    · rw [hstep]
      simp only [nodePipelineCreate, hready, hgate, Bool.not_true, Bool.false_eq_true, if_false,
        ne_eq, not_true_eq_false]
      rfl
    · rw [hstep]
      simp [nodePipelineCreate, hready, hgate, creationStep, NodePipeline.Call.next,
        NodePipeline.Progress.status]

/-- The node may create a pipeline, and there is a record for it. -/
structure Creates (env : Env) (nodeId : Nat) (k : Kernel) : Prop where
  ready : k.pipe.ready = true
  gateReady : k.nodebit.ready = true
  permitted : Permitted (k.nodebit.policy nodeId) NODEBIT_CAP_PIPELINE env.health
  free : ∃ p ∈ k.pipe.pipelines, p.live = false

/-- A creation makes a free record live, or fails and leaves the records alone. -/
theorem nodePipelineCreate_cases :
    (Creates env nodeId k ∧ (nodePipelineCreate env nowNs nodeId label k).1.1 = .ok ∧
      ∃ as x bs p, k.pipe.pipelines = as ++ x :: bs ∧ x.live = false ∧ p.live = true ∧
        (nodePipelineCreate env nowNs nodeId label k).2.pipe.pipelines = as ++ p :: bs) ∨
    (¬ Creates env nodeId k ∧ (nodePipelineCreate env nowNs nodeId label k).1.1 ≠ .ok ∧
      (nodePipelineCreate env nowNs nodeId label k).2.pipe.pipelines = k.pipe.pipelines) := by
  cases hready : k.pipe.ready with
  | false =>
    refine .inr ⟨fun h => ?_, ?_⟩
    · rw [h.ready] at hready
      cases hready
    · simp [nodePipelineCreate, hready]
  | true =>
    obtain ⟨nodebit, ⟨hpermit, hgate, -⟩ | ⟨hpermit, hgate, -⟩⟩ :=
      @gateCheck_cases env nodeId label k
    · simp only [nodePipelineCreate, hready, hgate, Bool.not_true, Bool.false_eq_true, if_false,
        ne_eq, not_true_eq_false]
      cases hfree : findFreeSlotLocked k.pipe with
      | none =>
        have hall := List.findIdx?_eq_none_iff.mp hfree
        refine .inr ⟨fun h => ?_, ?_⟩
        · obtain ⟨p, hp, hdead⟩ := h.free
          have hused : p.state ≠ .free := by simpa using hall p hp
          exact hused (by simpa [Pipeline.live] using hdead)
        · simp [createLocked, hfree]
      | some slot =>
        have hok : (createLocked nodeId label nowNs k.pipe).1 = (.ok, some k.pipe.nextId) := by
          simp only [createLocked, hfree]
        have hchange := @NodePipeline.createLocked_change k.pipe nodeId label nowNs
        rw [hok] at hchange
        cases hchange with
        | create hs hx hs' hq =>
          exact .inl ⟨⟨hready, hpermit.1, hpermit.2, _, by simp [hs], hx⟩, by rw [hok],
            _, _, _, _, hs, hx, hq, hs'⟩
    · refine .inr ⟨fun h => hpermit ⟨h.gateReady, h.permitted⟩, ?_⟩
      simp [nodePipelineCreate, hready, hgate, NodePipeline.State.deny]

end

/-! ## Errors and objects -/

/-- A pipeline will be created and its id lost: the request can be read and the node may create a
pipeline, but the place for the id cannot be written. -/
structure Orphans (env : CreateEnv) (s : Tables) (req : Nat) : Prop where
  request : copyFromUser s.window true req SIZEOF_PIPE_CREATE = .ok
  creates : Creates env.gate (env.memory.pipeCreateAt req).nodeId s.pipelines
  idBuffer : ¬ Accessible s.window (env.memory.pipeCreateAt req).pipelineIdOut SIZEOF_ID

section

variable {w : Window} {mem : UserMemory} {env : CreateEnv} {s s' : Tables} {st : AiosStatus}

/-- The four bytes of an id can be copied out exactly if they are accessible. -/
theorem copyToUser_id_iff {ptr : Nat} :
    copyToUser w ptr true SIZEOF_ID = .ok ↔ Accessible w ptr SIZEOF_ID := by
  rw [copyToUser_eq (by decide), syscallOutputBufferStatus_eq_ok]
  exact userAccessProbe_ok_iff (by decide) (by decide) (by decide)

theorem sysTensorCreate_error {beyond : Nat → Nat} {shape region out : Nat} {mm mm' : MmState}
    (hcall : sysTensorCreate w mem beyond shape region out mm = .done (st, mm')) (hst : st ≠ .ok) :
    mm' = mm := by
  simp only [sysTensorCreate] at hcall
  split at hcall
  · cases hcall
    rfl
  split at hcall
  · cases hcall
    rfl
  rename_i hbuffer
  obtain ⟨⟨⟨st₁, out₁⟩, mm₁⟩, halloc, hrest⟩ := bind_eq_done.mp hcall
  rcases tensorAlloc_cases halloc with ⟨hfail, rfl⟩ | ⟨t, hok⟩
  · simp only [if_pos hfail] at hrest
    cases hrest
    rfl
  · cases hok
    -- the buffer has been checked
    have hcopy := @copyToUser_eq w out SIZEOF_TENSOR_ALLOC (by decide)
    cases hrest
    exact absurd (hcopy.trans (not_not.mp hbuffer)) hst

/-- A request that cannot be read creates nothing; otherwise the creation decides, and after it
the copy of the id. -/
theorem sysPipeCreate_cases (env : Env) (nowNs req : Nat) (k : Kernel) :
    (copyFromUser w true req SIZEOF_PIPE_CREATE = .ok ∧
      Creates env (mem.pipeCreateAt req).nodeId k ∧
      (sysPipeCreate w mem env nowNs req k).1 =
        copyToUser w (mem.pipeCreateAt req).pipelineIdOut true SIZEOF_ID ∧
      ∃ as x bs p, k.pipe.pipelines = as ++ x :: bs ∧ x.live = false ∧ p.live = true ∧
        (sysPipeCreate w mem env nowNs req k).2.pipe.pipelines = as ++ p :: bs) ∨
    (¬ (copyFromUser w true req SIZEOF_PIPE_CREATE = .ok ∧
        Creates env (mem.pipeCreateAt req).nodeId k) ∧
      (sysPipeCreate w mem env nowNs req k).2.pipe.pipelines = k.pipe.pipelines) := by
  by_cases hrequest : copyFromUser w true req SIZEOF_PIPE_CREATE = .ok
  · rcases @nodePipelineCreate_cases env nowNs (mem.pipeCreateAt req).nodeId
      (mem.pipeCreateAt req).labelText k with ⟨hcreates, hok, hlist⟩ | ⟨hnot, hfail, hsame⟩
    · refine .inl ⟨hrequest, hcreates, ?_⟩
      simpa [sysPipeCreate, hrequest, hok] using hlist
    · refine .inr ⟨fun h => hnot h.2, ?_⟩
      simpa [sysPipeCreate, hrequest, hfail] using hsame
  · exact .inr ⟨fun h => hrequest h.1, by simp [sysPipeCreate, hrequest]⟩

theorem slots_ne {α : Type} {used : α → Bool} {as bs : List α} {x p : α} (hx : used x = false)
    (hp : used p = true) : slots (as ++ p :: bs) used ≠ slots (as ++ x :: bs) used := by
  intro heq
  have hnew : (as.length, p) ∈ slots (as ++ p :: bs) used := ⟨by simp, hp⟩
  rw [heq] at hnew
  have hsame : x = p := by simpa using hnew.1
  rw [hsame, hp] at hx
  cases hx

/-- In every kernel state, with every user window and every argument: a call that creates objects
leaves them as they are when it returns an error, except exactly that a pipeline stays behind when
the place for its id cannot be written. -/
theorem error_keeps_objects_iff (c : CreateCall) (hcall : c.exec env s = .done (st, s')) :
    (st ≠ .ok → s'.objects = s.objects) ↔ ∀ req, c = .pipeCreate req → ¬ Orphans env s req := by
  cases c with
  | tensorCreate shape region out =>
    obtain ⟨⟨st₁, mm'⟩, hcreate, hrest⟩ := bind_eq_done.mp hcall
    cases hrest
    refine ⟨fun _ req h => (nomatch h), fun _ hst => ?_⟩
    rw [sysTensorCreate_error hcreate hst]
  | modelLoad req =>
    obtain ⟨⟨st₁, alloc, mm', r'⟩, hload, hrest⟩ := bind_eq_done.mp hcall
    cases hrest
    refine ⟨fun _ req h => (nomatch h), fun _ hst => ?_⟩
    rcases sysModelLoad_cases hload with ⟨t, path, -, hcopy, hbuffer, -⟩ | ⟨-, -, rfl, hmodels⟩
    · exact absurd (hcopy.trans ((copyToUser_eq (by decide)).trans hbuffer)) hst
    · simp only [Tables.objects, hmodels]
  | inferRingSetup req =>
    refine ⟨fun _ req h => (nomatch h), fun _ hst => ?_⟩
    rcases sysInferRingSetup_cases (ringSetupAccess s.window env.memory req)
      ((env.memory.ringSetupAt req).ringIdOut != 0) (env.memory.ringSetupAt req).registration
      s.rings with ⟨hbuffer, -, ring, hsetup⟩ | ⟨st₁, -, hsetup⟩
    · simp only [CreateCall.exec, hsetup] at hcall
      cases hcall
      exact absurd ((copyToUser_eq (by decide)).trans hbuffer) hst
    · simp only [CreateCall.exec, hsetup] at hcall
      cases hcall
      rfl
  | pipeCreate req =>
    have hdone : Outcome.done
        ((sysPipeCreate s.window env.memory env.gate env.nowNs req s.pipelines).1,
          { s with pipelines :=
            (sysPipeCreate s.window env.memory env.gate env.nowNs req s.pipelines).2 }) =
        .done (st, s') := hcall
    cases hdone
    rcases @sysPipeCreate_cases s.window env.memory env.gate env.nowNs req s.pipelines with
      ⟨hrequest, hcreates, hstatus, as, x, bs, p, hs, hx, hp, hs'⟩ | ⟨hnot, hsame⟩
    · by_cases hid : Accessible s.window (env.memory.pipeCreateAt req).pipelineIdOut SIZEOF_ID
      · refine ⟨fun _ req' heq horphan => ?_, fun _ hst => ?_⟩
        · cases heq
          exact horphan.idBuffer hid
        · exact absurd (hstatus.trans (copyToUser_id_iff.mpr hid)) hst
      · refine ⟨fun hkeeps => ?_, fun hnone => ?_⟩
        · have hst := fun hok => hid (copyToUser_id_iff.mp (hstatus.symm.trans hok))
          have hsets := congrArg Objects.pipelines (hkeeps hst)
          simp only [Tables.objects, hs, hs'] at hsets
          exact absurd hsets (slots_ne hx hp)
        · exact absurd ⟨hrequest, hcreates, hid⟩ (hnone req rfl)
    · refine ⟨fun _ req' heq horphan => ?_, fun _ _ => ?_⟩
      · cases heq
        exact hnot ⟨horphan.request, horphan.creates⟩
      · simp only [Tables.objects, hsame]

end

/-! ## A lost pipeline -/

/-- User memory with one request in it, by node 40, whose id goes to the given address. -/
def pipeRequest (pipelineIdOut : Nat) : CreateEnv where
  memory :=
    { shapeAt := fun _ => ⟨0, [], [], 0⟩
      modelLoadAt := fun _ => ⟨0, 0, 0, 0⟩
      ringSetupAt := fun _ => ⟨⟨0, 0, 0, 0⟩, 0⟩
      pipeCreateAt := fun _ => ⟨40, ['p'], pipelineIdOut⟩
      charAt := fun _ => Char.ofNat 0 }
  gate := calm
  nowNs := 0
  beyond := fun _ => 0
  fuel := 0

/-- A program runs in the user hole, and node 40 may create pipelines. -/
def userTables : Tables where
  window := setWindow AIOS_BOOTSTRAP_USER_BASE AIOS_BOOTSTRAP_USER_SIZE
  mm := bootState
  registry := ⟨[], 1⟩
  rings := []
  pipelines := ⟨NodePipeline.oneNode, NodePipeline.init⟩

/-- Null is no place for the id: the call reports `AIOS_ERR_INVAL`, but the pipeline exists. -/
theorem pipeline_left_behind : ∃ s',
    (CreateCall.pipeCreate AIOS_BOOTSTRAP_USER_BASE).exec (pipeRequest 0) userTables =
      .done (.errInval, s') ∧
    userTables.objects.pipelines = ∅ ∧ ∃ p, (0, p) ∈ s'.objects.pipelines ∧ p.ownerNode = 40 := by
  have hcall : (sysPipeCreate userTables.window (pipeRequest 0).memory calm 0
      AIOS_BOOTSTRAP_USER_BASE userTables.pipelines).1 = .errInval := by decide +kernel
  have hnew : (((sysPipeCreate userTables.window (pipeRequest 0).memory calm 0
      AIOS_BOOTSTRAP_USER_BASE userTables.pipelines).2.pipe.pipelines)[0]?).any
      (fun p => p.live && p.ownerNode == 40) = true := by decide +kernel
  obtain ⟨p, hp, hlive⟩ := (Option.any_eq_true _ _).mp hnew
  obtain ⟨hlive, howner⟩ := Bool.and_eq_true_iff.mp hlive
  refine ⟨{ userTables with pipelines := _ }, congrArg (fun st => Outcome.done (st, _)) hcall, ?_,
    p, ⟨hp, hlive⟩, by simpa using howner⟩
  refine Set.eq_empty_iff_forall_notMem.mpr fun x hx => ?_
  have hdead : ∀ q ∈ userTables.pipelines.pipe.pipelines, q.live = false := by decide +kernel
  have hused := hdead x.2 (List.mem_of_getElem? hx.1)
  rw [hx.2] at hused
  cases hused

/-- The same memory with a request to load a model, whose id goes to address 8. -/
def loadRequest : CreateEnv :=
  { pipeRequest 0 with memory := { (pipeRequest 0).memory with
      modelLoadAt := fun _ => ⟨AIOS_BOOTSTRAP_USER_BASE, 8, 0, 0⟩ } }

/-- The place for the id is outside the window, and the load is refused. -/
theorem error_keeps_objects_load : ∃ s',
    (CreateCall.modelLoad AIOS_BOOTSTRAP_USER_BASE).exec loadRequest userTables =
      .done (.errPerm, s') ∧ s'.objects = userTables.objects := by
  have hcall : (CreateCall.modelLoad AIOS_BOOTSTRAP_USER_BASE).exec loadRequest userTables =
      .done (.errPerm, userTables) := rfl
  exact ⟨_, hcall, (error_keeps_objects_iff _ hcall).mpr (fun _ h => nomatch h) (by decide)⟩

end AiosKernel.Syscall
