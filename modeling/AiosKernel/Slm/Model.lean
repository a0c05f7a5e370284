/-
# `AiosKernel.Slm.Model` — nodes, policy and plans of the SLM orchestrator

The second part of `kernel/runtime/slm_orchestrator.c`.  A catalog lists the nodes
with the actions they allow; `compute_nodebits` takes away from it what the state
of the machine forbids.  A plan is judged against that when it is submitted, and
`slm_plan_apply` executes plans that were found valid.
-/
import AiosKernel.Slm.Profile

namespace AiosKernel.Slm

open Word Health

def SLM_PLAN_CAP : Nat := 16

def SLM_NODEBIT_F_PRESENT : BitVec 32 := 1 <<< 0
def SLM_NODEBIT_F_USER_VISIBLE : BitVec 32 := 1 <<< 1
def SLM_NODEBIT_F_OBSERVE_ONLY : BitVec 32 := 1 <<< 2
def SLM_NODEBIT_F_APPLY_ALLOWED : BitVec 32 := 1 <<< 3
def SLM_NODEBIT_F_RISKY : BitVec 32 := 1 <<< 4
def SLM_NODEBIT_F_REQUIRES_MEDIATION : BitVec 32 := 1 <<< 5
def SLM_NODEBIT_F_RUNTIME_READY : BitVec 32 := 1 <<< 6

/-! ## The catalog -/

inductive NodeKind where
  | api
  | tool
  | device
  | memory
  | clock
  | policy
  deriving DecidableEq, Repr

/-- `slm_nodebit_id_t`. -/
inductive NodeId where
  | none
  | apiBootstrap
  | apiHwSnapshot
  | apiPlanSubmit
  | toolDiscovery
  | deviceEthernet
  | deviceUsb
  | deviceStorage
  | memoryFabric
  | clockProfile
  | policyGate
  deriving DecidableEq, Repr

structure Nodebit where
  nodeId : NodeId
  parentId : NodeId
  kind : NodeKind
  flags : BitVec 32
  actionBits : BitVec 32
  allowBits : BitVec 32
  observeOnlyBits : BitVec 32
  riskyBits : BitVec 32
  requiredCapabilityBits : BitVec 32
  healthScore : Nat
  accessScore : Nat
  latencyClass : Nat
  riskLevel : Nat
  deriving DecidableEq, Repr

def Action.bit (action : Action) : BitVec 32 := 1 <<< action.number

def SLM_ACTION_DISCOVERY_BITS : BitVec 32 :=
  Action.reprobePci.bit ||| Action.ioAudit.bit ||| Action.coreAudit.bit
def SLM_ACTION_ETHERNET_BITS : BitVec 32 :=
  Action.bootstrapE1000.bit ||| Action.e1000TxSmoke.bit ||| Action.e1000Dump.bit |||
    Action.e1000RxPoll.bit
def SLM_ACTION_USB_BITS : BitVec 32 := Action.bootstrapUsb.bit ||| Action.usbDump.bit
def SLM_ACTION_STORAGE_BITS : BitVec 32 := Action.bootstrapStorage.bit ||| Action.storageDump.bit
def SLM_ACTION_KNOWN_BITS : BitVec 32 :=
  SLM_ACTION_DISCOVERY_BITS ||| SLM_ACTION_ETHERNET_BITS ||| SLM_ACTION_USB_BITS |||
    SLM_ACTION_STORAGE_BITS

/-- A capability bit at the width of `required_capability_bits`. -/
def cap (flag : BitVec 16) : BitVec 32 := flag.setWidth 32

/-- The flags of nodes that only show something. -/
def readFlags : BitVec 32 :=
  SLM_NODEBIT_F_PRESENT ||| SLM_NODEBIT_F_USER_VISIBLE ||| SLM_NODEBIT_F_OBSERVE_ONLY |||
    SLM_NODEBIT_F_RUNTIME_READY

def deviceFlags : BitVec 32 :=
  SLM_NODEBIT_F_PRESENT ||| SLM_NODEBIT_F_USER_VISIBLE ||| SLM_NODEBIT_F_APPLY_ALLOWED |||
    SLM_NODEBIT_F_RISKY ||| SLM_NODEBIT_F_REQUIRES_MEDIATION

/-- A device node of the catalog: all of its actions are allowed. -/
def deviceEntry (nodeId : NodeId) (actionBits observeOnlyBits riskyBits : BitVec 32)
    (healthScore accessScore latencyClass : Nat) : Nodebit :=
  ⟨nodeId, .policyGate, .device, deviceFlags, actionBits, actionBits, observeOnlyBits, riskyBits,
    cap SLM_USER_HW_ACCESS_F_MEDIATED_IO, healthScore, accessScore, latencyClass, 2⟩

/-- The entry of `SLM_NODEBIT_ID_DEVICE_ETHERNET`. -/
def ethernetEntry : Nodebit :=
  deviceEntry .deviceEthernet SLM_ACTION_ETHERNET_BITS
    (Action.e1000Dump.bit ||| Action.e1000RxPoll.bit)
    (Action.bootstrapE1000.bit ||| Action.e1000TxSmoke.bit) 70 60 2

/-- The entry of `SLM_NODEBIT_ID_DEVICE_USB`. -/
def usbEntry : Nodebit :=
  deviceEntry .deviceUsb SLM_ACTION_USB_BITS Action.usbDump.bit Action.bootstrapUsb.bit 68 56 3

/-- The entry of `SLM_NODEBIT_ID_DEVICE_STORAGE`. -/
def storageEntry : Nodebit :=
  deviceEntry .deviceStorage SLM_ACTION_STORAGE_BITS Action.storageDump.bit
    Action.bootstrapStorage.bit 68 58 3

def nodebitCatalog : List Nodebit :=
  [⟨.apiBootstrap, .none, .api, readFlags, 0, 0, 0, 0,
      cap SLM_USER_HW_ACCESS_F_BOOTSTRAP_SNAPSHOT, 100, 100, 1, 0⟩,
   ⟨.apiHwSnapshot, .apiBootstrap, .api, readFlags, 0, 0, 0, 0,
      cap SLM_USER_HW_ACCESS_F_BOOTSTRAP_SNAPSHOT, 100, 96, 1, 0⟩,
   ⟨.apiPlanSubmit, .policyGate, .api, SLM_NODEBIT_F_PRESENT ||| SLM_NODEBIT_F_USER_VISIBLE |||
      SLM_NODEBIT_F_REQUIRES_MEDIATION ||| SLM_NODEBIT_F_RUNTIME_READY, 0, 0, 0, 0,
      cap SLM_USER_HW_ACCESS_F_MEDIATED_IO, 90, 80, 2, 1⟩,
   ⟨.toolDiscovery, .policyGate, .tool, readFlags ||| SLM_NODEBIT_F_APPLY_ALLOWED |||
      SLM_NODEBIT_F_REQUIRES_MEDIATION, SLM_ACTION_DISCOVERY_BITS, SLM_ACTION_DISCOVERY_BITS,
      Action.ioAudit.bit ||| Action.coreAudit.bit, 0, cap SLM_USER_HW_ACCESS_F_MEDIATED_IO,
      88, 82, 3, 0⟩,
   ethernetEntry,
   usbEntry,
   storageEntry,
   ⟨.memoryFabric, .apiBootstrap, .memory, readFlags, 0, 0, 0, 0, 0, 92, 86, 1, 0⟩,
   ⟨.clockProfile, .apiBootstrap, .clock, readFlags, 0, 0, 0, 0, 0, 90, 84, 1, 0⟩,
   ⟨.policyGate, .none, .policy, readFlags ||| SLM_NODEBIT_F_REQUIRES_MEDIATION,
      SLM_ACTION_KNOWN_BITS, 0, SLM_ACTION_KNOWN_BITS,
      Action.bootstrapE1000.bit ||| Action.e1000TxSmoke.bit ||| Action.bootstrapUsb.bit |||
        Action.bootstrapStorage.bit, cap SLM_USER_HW_ACCESS_F_MEDIATED_IO, 90, 78, 1, 1⟩]

/-! ## Effective nodes -/

inductive RuntimeState where
  | absent
  | bootstrap
  | ready
  | degraded
  | failed
  deriving DecidableEq, Repr

/-- The runtime is neither absent nor failed. -/
def RuntimeState.available (r : RuntimeState) : Bool := r != .absent && r != .failed

/-- `snapshot_runtime_state`, given `g_slm_runtime_state`. -/
def snapshotRuntimeState (r : RuntimeState) (health : Summary) : RuntimeState :=
  match r with
  | .absent | .failed | .bootstrap => r
  | .ready | .degraded => if health.level = .unsafeLevel then .degraded else r

def nodebitHealthScore (health : Summary) : Nat :=
  match health.level with
  | .stable => 92
  | .degraded => 62
  | .unsafeLevel => 18

def Nodebit.disableApply (node : Nodebit) : Nodebit :=
  { node with allowBits := 0, flags := node.flags &&& ~~~SLM_NODEBIT_F_APPLY_ALLOWED }

/-- Set or clear `SLM_NODEBIT_F_RUNTIME_READY`. -/
def Nodebit.markReady (ready : Bool) (node : Nodebit) : Nodebit :=
  { node with flags := if ready then node.flags ||| SLM_NODEBIT_F_RUNTIME_READY
      else node.flags &&& ~~~SLM_NODEBIT_F_RUNTIME_READY }

/-- The nodes that stay readable without the runtime. -/
def NodeId.readNode : NodeId → Bool
  | .apiBootstrap | .apiHwSnapshot | .memoryFabric | .clockProfile => true
  | _ => false

/-- What the driver of a device leaves of its node. -/
def Nodebit.device (present ready : Bool) (readyScore coldScore : Nat) (node : Nodebit) : Nodebit :=
  if !present then { (node.markReady false).disableApply with accessScore := 8 }
  else { node.markReady ready with accessScore := if ready then readyScore else coldScore }

/-- An action that is not ready is taken out. -/
def Nodebit.maskUnless (ready : Bool) (action : Action) (node : Nodebit) : Nodebit :=
  if !ready then { node with allowBits := node.allowBits &&& ~~~action.bit } else node

/-- The case of `SLM_NODEBIT_ID_DEVICE_ETHERNET`, where polling and sending need their rings. -/
def Nodebit.ethernet (nic : NicInfo) (node : Nodebit) : Nodebit :=
  let node := node.device nic.present nic.ready 78 48
  if !nic.present then node
  else (node.maskUnless nic.rxReady .e1000RxPoll).maskUnless nic.txReady .e1000TxSmoke

/-- The loop body of `compute_nodebits`, first the scores. -/
def Nodebit.withScores (health : Summary) (access : UserHwAccess) (node : Nodebit) : Nodebit :=
  { node with
    healthScore := min node.healthScore (nodebitHealthScore health)
    accessScore := min node.accessScore access.accessScore }

/-- Then the runtime. -/
def Nodebit.withRuntime (runtime : RuntimeState) (node : Nodebit) : Nodebit :=
  if !runtime.available && !node.nodeId.readNode then
    { (node.markReady false).disableApply with accessScore := min node.accessScore 24 }
  else node

/-- Then the capabilities of user programs. -/
def Nodebit.withCapabilities (access : UserHwAccess) (node : Nodebit) : Nodebit :=
  if node.requiredCapabilityBits ≠ 0 ∧
      cap access.capabilityFlags &&& node.requiredCapabilityBits ≠ node.requiredCapabilityBits then
    { node.disableApply with accessScore := min node.accessScore 30 }
  else node

/-- Then the switch over the devices. -/
def Nodebit.withDrivers (m : Machine) (node : Nodebit) : Nodebit :=
  match node.nodeId with
  | .deviceEthernet => node.ethernet m.nic
  | .deviceUsb => node.device m.usb.present m.usb.ready 74 44
  | .deviceStorage => node.device m.storage.present m.storage.ready 76 46
  | _ => node

/-- Then the health of the kernel. -/
def Nodebit.withHealth (health : Summary) (node : Nodebit) : Nodebit :=
  if !health.riskyIoAllowed then { node with allowBits := node.allowBits &&& ~~~node.riskyBits }
  else node

/-- At last, a node with nothing left to apply loses its flag. -/
def Nodebit.settle (node : Nodebit) : Nodebit :=
  if node.allowBits &&& node.actionBits = 0 then
    { node with flags := node.flags &&& ~~~SLM_NODEBIT_F_APPLY_ALLOWED }
  else node

/-- The whole loop body. -/
def Nodebit.effective (m : Machine) (access : UserHwAccess) (runtime : RuntimeState)
    (node : Nodebit) : Nodebit :=
  let health := getSummary m.health
  let node := ((node.withScores health access).withRuntime runtime).withCapabilities access
  ((node.withDrivers m).withHealth health).settle

def computeNodebits (m : Machine) (access : UserHwAccess) (runtime : RuntimeState) : List Nodebit :=
  nodebitCatalog.map (Nodebit.effective m access runtime)

def requestNodebitId (req : PlanRequest) : NodeId :=
  match req.template with
  | .discovery => .toolDiscovery
  | .pciEthernet => .deviceEthernet
  | .pciUsb => .deviceUsb
  | .pciStorage => .deviceStorage
  | .none | .other _ => .none

/-- `read_effective_nodebit`; `none` is a status other than `AIOS_OK`. -/
def readEffectiveNodebit (m : Machine) (l : Learning) (runtime : RuntimeState) (id : NodeId) :
    Option Nodebit :=
  if id = .none then none
  else
    let runtime := snapshotRuntimeState runtime (getSummary m.health)
    (computeNodebits m (userHwAccess m l) runtime).find? fun node => node.nodeId == id

/-! ## Policy -/

def nodebitPolicyPermits (m : Machine) (l : Learning) (runtime : RuntimeState)
    (req : PlanRequest) : Bool :=
  if !req.action.valid || req.action == .none then false
  else if !runtime.available then false
  else
    match readEffectiveNodebit m l runtime (requestNodebitId req) with
    | none => false
    | some node =>
      let bit := req.action.bit
      let actionKnown := node.actionBits &&& bit != 0
      let observeAllowed := (node.observeOnlyBits ||| node.allowBits) &&& bit != 0
      let applyAllowed := node.flags &&& SLM_NODEBIT_F_APPLY_ALLOWED != 0 &&
        node.allowBits &&& bit != 0
      let risky := node.riskyBits &&& bit != 0 || node.flags &&& SLM_NODEBIT_F_RISKY != 0
      if !actionKnown then false
      else if req.allowApply && (risky || 0 < req.riskLevel) &&
          !(getSummary m.health).riskyIoAllowed then false
      else if req.allowApply then applyAllowed else observeAllowed

def Template.isDevice : Template → Bool
  | .pciEthernet | .pciUsb | .pciStorage => true
  | _ => false

/-- The switch at the end of `request_valid`. -/
def actionFits (m : Machine) (req : PlanRequest) : Bool :=
  match req.action with
  | .reprobePci | .ioAudit | .coreAudit => req.template == .discovery
  | .bootstrapE1000 | .e1000TxSmoke | .e1000Dump => req.template == .pciEthernet
  | .e1000RxPoll => req.template == .pciEthernet && m.nic.present && m.nic.ready && m.nic.rxReady
  | .bootstrapUsb | .usbDump => req.template == .pciUsb
  | .bootstrapStorage | .storageDump => req.template == .pciStorage
  | .none | .other _ => false

def requestValid (m : Machine) (l : Learning) (runtime : RuntimeState) (req : PlanRequest) : Bool :=
  let health := getSummary m.health
  if !req.action.valid || req.action == .none || !runtime.available then false
  else if 3 < req.riskLevel then false
  else if 256 < req.queueDepthHint || 4096 < req.pollBudgetHint || 4096 < req.dmaWindowKibHint then
    false
  else if !planTargetPresent m req then false
  else if !nodebitPolicyPermits m l runtime req then false
  else if health.level == .unsafeLevel && req.action != .reprobePci && req.action != .ioAudit &&
      req.action != .coreAudit then false
  else if !health.riskyIoAllowed && 0 < req.riskLevel && req.template.isDevice then false
  else if 0 < req.riskLevel && computePlanConfidence m l req < 30 then false
  else actionFits m req

/-! ## Plans -/

inductive PlanState where
  | empty
  | proposed
  | validated
  | applied
  | failed
  | rejected
  deriving DecidableEq, Repr

structure Plan where
  planId : Nat
  request : PlanRequest
  state : PlanState
  lastStatus : AiosStatus
  expectedConfidence : Nat
  validationScore : Nat
  createdTsNs : Nat
  appliedTsNs : Nat
  deriving DecidableEq, Repr

structure PlanObservation where
  applyOk : Nat
  applyFailed : Nat
  applyRejected : Nat
  lastLatencyNs : Nat
  minLatencyNs : Nat
  maxLatencyNs : Nat
  totalLatencyNs : Nat
  deriving DecidableEq, Repr

/-- The static variables the plans need. -/
structure State where
  plans : List Plan
  nextPlanId : Nat
  learning : Learning
  runtimeState : RuntimeState
  planObs : PlanObservation
  deriving DecidableEq, Repr

def Plan.zero : Plan :=
  ⟨0, ⟨.none, .none, 0, 0, 0, 0, 0, 0, 0, false⟩, .empty, .ok, 0, 0, 0, 0⟩

/-- What `slm_orchestrator_init` leaves before it seeds plans, with the learning profile and the
state of the runtime it arrives at. -/
def init (learning : Learning) (runtimeState : RuntimeState) : State where
  plans := List.replicate SLM_PLAN_CAP Plan.zero
  nextPlanId := 1
  learning := learning
  runtimeState := runtimeState
  planObs := ⟨0, 0, 0, 0, 0, 0, 0⟩

def findPlan (s : State) (planId : Nat) : Option Nat :=
  s.plans.findIdx? fun p => p.state != .empty && p.planId == planId

def allocPlan (s : State) : Option Nat := s.plans.findIdx? fun p => p.state == .empty

/-- `slm_plan_submit`: the status and the id of the plan; a null request is `none`. -/
def planSubmit (m : Machine) (nowNs : Nat) (req : Option PlanRequest) (s : State) :
    (AiosStatus × Option Nat) × State :=
  match allocPlan s, req with
  | some slot, some req =>
    let confidence := computePlanConfidence m s.learning req
    let valid := requestValid m s.learning s.runtimeState req
    let plan : Plan :=
      { planId := s.nextPlanId
        request := req
        state := if valid then .validated else .rejected
        lastStatus := .ok
        expectedConfidence := confidence
        validationScore := clampU8 (confidence + ((if req.allowApply then 5 else 0) -
          (req.riskLevel : Int) * 5))
        createdTsNs := nowNs
        appliedTsNs := 0 }
    ((if valid then .ok else .errInval, some s.nextPlanId),
      { s with
        plans := s.plans.set slot plan
        nextPlanId := u32 (s.nextPlanId + 1)
        learning := s.learning.recordSubmission req.action valid })
  | _, _ => ((.errBusy, none), s)

def PlanObservation.recordApply (status : AiosStatus) (latencyNs : Nat) (o : PlanObservation) :
    PlanObservation :=
  { o with
    applyOk := if status = .ok then u32 (o.applyOk + 1) else o.applyOk
    applyFailed := if status = .ok then o.applyFailed else u32 (o.applyFailed + 1)
    lastLatencyNs := latencyNs
    totalLatencyNs := u64 (o.totalLatencyNs + latencyNs)
    minLatencyNs := if o.minLatencyNs == 0 || latencyNs < o.minLatencyNs then latencyNs
      else o.minLatencyNs
    maxLatencyNs := if o.maxLatencyNs < latencyNs then latencyNs else o.maxLatencyNs }

/-- `apply_request`, given what the driver or the probe it calls returns. -/
def applyRequest (returned : AiosStatus) (req : PlanRequest) : AiosStatus :=
  match req.action with
  | .reprobePci | .bootstrapE1000 | .e1000TxSmoke | .bootstrapUsb | .bootstrapStorage => returned
  | .coreAudit | .ioAudit | .e1000Dump | .usbDump | .storageDump => .ok
  | .e1000RxPoll => if returned = .errBusy then .ok else returned
  | .none | .other _ => .errNosys

/-- What an application finds: the clock before and after, and what the driver returns. -/
structure ApplyEnv where
  startNs : Nat
  endNs : Nat
  returned : AiosStatus
  deriving DecidableEq, Repr

/-- `slm_plan_apply`: the status, and the request it gave to `apply_request` if it came to that. -/
def planApply (env : ApplyEnv) (planId : Nat) (s : State) :
    (AiosStatus × Option PlanRequest) × State :=
  match findPlan s planId with
  | none => ((.errInval, none), s)
  | some slot =>
    let plan := s.plans.getD slot Plan.zero
    if plan.state ≠ .validated ∨ plan.request.allowApply = false then
      ((.errPerm, none), { s with
        plans := s.plans.set slot { plan with state := .rejected, lastStatus := .errPerm }
        learning := s.learning.recordSubmission plan.request.action false
        planObs := { s.planObs with applyRejected := u32 (s.planObs.applyRejected + 1) } })
    else
      let status := applyRequest env.returned plan.request
      let latencyNs := sub64 env.endNs env.startNs
      ((status, some plan.request), { s with
        plans := s.plans.set slot { plan with
          lastStatus := status
          appliedTsNs := env.endNs
          state := if status = .ok then .applied else .failed }
        learning := s.learning.recordResult plan.request.action status latencyNs
        planObs := s.planObs.recordApply status latencyNs })

/-- `slm_plan_get` with a non-null `out`. -/
def planGet (planId : Nat) (s : State) : AiosStatus × Option Plan :=
  match findPlan s planId with
  | none => (.errInval, none)
  | some slot => (.ok, some (s.plans.getD slot Plan.zero))

end AiosKernel.Slm
