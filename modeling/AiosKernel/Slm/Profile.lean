/-
# `AiosKernel.Slm.Profile` — what the SLM orchestrator makes of the machine

The first part of `kernel/runtime/slm_orchestrator.c`: what it learns from plans
and finds at boot, and the profiles it computes whenever a plan is judged, down to
the access profile of user programs.  What it reads of other subsystems is a record,
`Machine`, with those fields of theirs that it looks at.

Arguments of the `clamp` functions are `int32_t`, so sums and products are
reduced there.
-/
import AiosKernel.Health
import AiosKernel.Lib.Word

namespace AiosKernel.Slm

open Word Health

/-! ## The machine -/

inductive BootPerfTier where
  | low
  | mid
  | high
  deriving DecidableEq, Repr

/-- `acpi_ready` and `acpi_info_t`. -/
structure AcpiInfo where
  ready : Bool
  xsdtPresent : Bool
  mcfgPresent : Bool
  madtPresent : Bool
  deriving DecidableEq, Repr

/-- `pci_core_summary_t`. -/
structure PciSummary where
  ecamAvailable : Bool
  totalFunctions : Nat
  pcieFunctions : Nat
  msiCapableFunctions : Nat
  msixCapableFunctions : Nat
  legacyIrqFunctions : Nat
  deriving DecidableEq, Repr

structure PlatformDevice where
  kind : Nat
  vendorId : Nat
  deviceId : Nat
  deriving DecidableEq, Repr

/-- `driver_stack_snapshot_t`, with its `merged_policy`. -/
structure DriverStack where
  readyCount : Nat
  degradedCount : Nat
  pcieDeviceCount : Nat
  observeOnly : Bool
  queueDepthHint : Nat
  pollBudgetHint : Nat
  dmaWindowKibHint : Nat
  deriving DecidableEq, Repr

/-- `e1000_driver_info_t`. -/
structure NicInfo where
  present : Bool
  ready : Bool
  rxReady : Bool
  txReady : Bool
  deriving DecidableEq, Repr

/-- `usb_host_info_t` and `storage_host_info_t`. -/
structure HostInfo where
  present : Bool
  ready : Bool
  deriving DecidableEq, Repr

/-- The rest of the kernel, as the orchestrator sees it. -/
structure Machine where
  health : List Subsystem
  acpi : AcpiInfo
  pci : PciSummary
  matchedDevices : Nat
  devices : List PlatformDevice
  drivers : DriverStack
  tier : BootPerfTier
  userModeReady : Bool
  nic : NicInfo
  usb : HostInfo
  storage : HostInfo
  deriving DecidableEq, Repr

/-! ## Requests -/

/-- `slm_template_t`; a caller may pass any number. -/
inductive Template where
  | none
  | pciEthernet
  | pciUsb
  | pciStorage
  | discovery
  | other (n : Nat)
  deriving DecidableEq, Repr

/-- `slm_action_t`; a caller may pass any number. -/
inductive Action where
  | none
  | reprobePci
  | bootstrapE1000
  | e1000TxSmoke
  | e1000Dump
  | bootstrapUsb
  | usbDump
  | bootstrapStorage
  | storageDump
  | ioAudit
  | coreAudit
  | e1000RxPoll
  | other (n : Nat)
  deriving DecidableEq, Repr

def SLM_ACTION_COUNT : Nat := 12

/-- The number of an action; `other` are those from `SLM_ACTION_COUNT` on. -/
def Action.number : Action → Nat
  | .none => 0
  | .reprobePci => 1
  | .bootstrapE1000 => 2
  | .e1000TxSmoke => 3
  | .e1000Dump => 4
  | .bootstrapUsb => 5
  | .usbDump => 6
  | .bootstrapStorage => 7
  | .storageDump => 8
  | .ioAudit => 9
  | .coreAudit => 10
  | .e1000RxPoll => 11
  | .other n => SLM_ACTION_COUNT + n

def Action.valid (action : Action) : Bool := decide (action.number < SLM_ACTION_COUNT)

structure PlanRequest where
  template : Template
  action : Action
  targetVendorId : Nat
  targetDeviceId : Nat
  targetKind : Nat
  riskLevel : Nat
  queueDepthHint : Nat
  pollBudgetHint : Nat
  dmaWindowKibHint : Nat
  allowApply : Bool
  deriving DecidableEq, Repr

def PLATFORM_DEVICE_UNKNOWN : Nat := 0

def planTargetPresent (m : Machine) (req : PlanRequest) : Bool :=
  req.template == .discovery || m.devices.any fun dev =>
    !(req.targetKind != PLATFORM_DEVICE_UNKNOWN && dev.kind != req.targetKind) &&
    !(req.targetVendorId != 0 && dev.vendorId != req.targetVendorId) &&
    !(req.targetDeviceId != 0 && dev.deviceId != req.targetDeviceId)

/-! ## Clamps -/

/-- The shape of the four: below, above, or the value itself. -/
def clamp (lo hi value : Int) : Int :=
  let value := i32 value
  if value < lo then lo else if hi < value then hi else value

def clampU8 (value : Int) : Nat := (clamp 0 100 value).toNat

def clampU16 (value : Int) (lo hi : Nat) : Nat := (clamp lo hi value).toNat

/-- `clamp_u32`; a negative value is below every bound. -/
def clampU32 (value : Int) (lo hi : Nat) : Nat := (clamp lo hi value).toNat

/-! ## Learning -/

structure LearningEntry where
  attempts : Nat
  successes : Nat
  failures : Nat
  timeouts : Nat
  rejections : Nat
  lastLatencyNs : Nat
  lastStatus : AiosStatus
  confidence : Nat
  deriving DecidableEq, Repr

structure Learning where
  appliedSuccesses : Nat
  appliedFailures : Nat
  rejectedSubmissions : Nat
  globalConfidence : Nat
  ioAggressivenessBias : Int
  tunedQueueDepth : Nat
  tunedPollBudget : Nat
  tunedDmaWindowKib : Nat
  actions : List LearningEntry
  deriving DecidableEq, Repr

def Learning.recomputeTuning (l : Learning) : Learning :=
  let bias := l.ioAggressivenessBias
  let trend : Int :=
    if u32 (l.appliedFailures + 1) < l.appliedSuccesses then 1
    else if l.appliedSuccesses < l.appliedFailures then -1
    else 0
  let wary : Int := if 2 < l.rejectedSubmissions then 1 else 0
  { l with
    tunedQueueDepth := clampU16 (16 + bias * 4 + trend * 4 - wary * 2) 8 48
    tunedPollBudget := clampU16 (512 + bias * 256 + trend * 128 - wary * 64) 128 2048
    tunedDmaWindowKib := clampU32 (128 + bias * 64 + trend * 32) 32 512 }

/-- `learning_init`, on the zeroed profile. -/
def Learning.init : Learning :=
  Learning.recomputeTuning ⟨0, 0, 0, 50, 0, 0, 0, 0,
    List.replicate SLM_ACTION_COUNT ⟨0, 0, 0, 0, 0, 0, .ok, 50⟩⟩

def Learning.recordSubmission (action : Action) (accepted : Bool) (l : Learning) : Learning :=
  if !action.valid || accepted then l
  else Learning.recomputeTuning { l with
    actions := l.actions.modify action.number fun e => { e with
      rejections := u32 (e.rejections + 1)
      confidence := clampU8 (e.confidence - 5) }
    rejectedSubmissions := u32 (l.rejectedSubmissions + 1)
    globalConfidence := if 2 < l.globalConfidence then l.globalConfidence - 2
      else l.globalConfidence }

def Action.movesBias : Action → Bool
  | .e1000TxSmoke | .e1000RxPoll | .bootstrapE1000 | .bootstrapUsb | .bootstrapStorage => true
  | _ => false

def Learning.recordResult (action : Action) (status : AiosStatus) (latencyNs : Nat)
    (l : Learning) : Learning :=
  if !action.valid then l
  else if status = .ok then Learning.recomputeTuning { l with
    actions := l.actions.modify action.number fun e => { e with
      attempts := u32 (e.attempts + 1)
      lastStatus := status
      lastLatencyNs := latencyNs
      successes := u32 (e.successes + 1)
      confidence := clampU8 (e.confidence + 6) }
    appliedSuccesses := u32 (l.appliedSuccesses + 1)
    globalConfidence := clampU8 (l.globalConfidence + 2)
    ioAggressivenessBias := if l.ioAggressivenessBias < 2 && action.movesBias
      then l.ioAggressivenessBias + 1 else l.ioAggressivenessBias }
  else Learning.recomputeTuning { l with
    actions := l.actions.modify action.number fun e => { e with
      attempts := u32 (e.attempts + 1)
      lastStatus := status
      lastLatencyNs := latencyNs
      failures := u32 (e.failures + 1)
      timeouts := if status = .errTimeout then u32 (e.timeouts + 1) else e.timeouts
      confidence := clampU8 (e.confidence - if status = .errTimeout then 12 else 8) }
    appliedFailures := u32 (l.appliedFailures + 1)
    globalConfidence := clampU8 (l.globalConfidence - 4)
    ioAggressivenessBias := if -2 < l.ioAggressivenessBias && action.movesBias
      then l.ioAggressivenessBias - 1 else l.ioAggressivenessBias }

def computePlanConfidence (m : Machine) (l : Learning) (req : PlanRequest) : Nat :=
  let known : Int := match l.actions[req.action.number]? with
    | some e => e.confidence
    | none => 50
  let confidence := known + ((l.globalConfidence : Int) - 50).tdiv 2 - req.riskLevel * 8 +
    l.ioAggressivenessBias * 4
  if !planTargetPresent m req && req.template != .discovery then clampU8 0 else clampU8 confidence

/-! ## Profiles -/

structure FabricProfile where
  acpiReady : Bool
  ecamAvailable : Bool
  pciTotalFunctions : Nat
  pciPcieFunctions : Nat
  pciMsiCapableFunctions : Nat
  compatibilityScore : Nat
  deriving DecidableEq, Repr

def computeCompatibilityScore (m : Machine) : Nat :=
  let score : Int := 25
  let score := if m.acpi.ready then score + 20 else score
  let score := if m.acpi.xsdtPresent then score + 5 else score
  let score := if m.acpi.mcfgPresent then score + 10 else score
  let score := if m.acpi.madtPresent then score + 10 else score
  let score := if m.pci.ecamAvailable then score + 10 else score
  let score := if 0 < m.pci.pcieFunctions then score + 10 else score
  let score := if 0 < m.pci.msiCapableFunctions then score + 5 else score
  let score := if 0 < m.pci.msixCapableFunctions then score + 5 else score
  let score := if 0 < m.matchedDevices then score + 10 else score
  let score := if 0 < m.pci.legacyIrqFunctions && m.pci.msiCapableFunctions == 0 then score - 10
    else score
  clampU8 score

def computeFabricProfile (m : Machine) : FabricProfile where
  acpiReady := m.acpi.ready
  ecamAvailable := m.pci.ecamAvailable
  pciTotalFunctions := m.pci.totalFunctions
  pciPcieFunctions := m.pci.pcieFunctions
  pciMsiCapableFunctions := m.pci.msiCapableFunctions
  compatibilityScore := computeCompatibilityScore m

/-! ### At boot -/

inductive DriverStage where
  | absent
  | discovered
  | bootstrap
  | controlReady
  | partialIo
  | activeIo
  | degraded
  deriving DecidableEq, Repr

def DriverStage.ready (stage : DriverStage) : Bool :=
  stage == .controlReady || stage == .partialIo || stage == .activeIo

def DriverStage.dataPathReady (stage : DriverStage) : Bool :=
  stage == .partialIo || stage == .activeIo

/-- `driver_stack_entry_t`. -/
structure DriverEntry where
  stage : DriverStage
  dataPathReady : Bool

/-- What `driver_model_find_class` finds for the three classes. -/
structure DriverClasses where
  net : Option DriverEntry
  usb : Option DriverEntry
  storage : Option DriverEntry

def clampI8 (value lo hi : Int) : Int := clamp lo hi value

def Learning.setConfidence (action : Action) (confidence : Nat) (l : Learning) : Learning :=
  if !action.valid then l
  else { l with actions := l.actions.modify action.number fun e => { e with confidence := confidence } }

/-- The confidences that `learning_refresh_boot_observation` sets, before they are clamped. -/
def bootConfidences (m : Machine) (d : DriverClasses) (globalConfidence : Int) : List (Action × Int) :=
  let byStage (entry : Option DriverEntry) (ready cold absent : Int) : Int :=
    match entry with
    | some e => if e.stage.ready then ready else cold
    | none => absent
  [(.reprobePci, globalConfidence + if 0 < m.pci.totalFunctions then 10 else -10),
   (.coreAudit, globalConfidence + 15),
   (.ioAudit, globalConfidence + if 0 < m.matchedDevices then 5 else -15),
   (.bootstrapE1000, byStage d.net 55 72 10),
   (.e1000Dump, byStage d.net 88 30 5),
   (.e1000TxSmoke, byStage d.net 78 15 15),
   (.e1000RxPoll, if d.net.any fun e => e.stage.dataPathReady && e.dataPathReady then 74 else 12),
   (.bootstrapUsb, byStage d.usb 58 68 10),
   (.usbDump, byStage d.usb 84 25 5),
   (.bootstrapStorage, byStage d.storage 58 70 10),
   (.storageDump, byStage d.storage 84 25 5)]

def Learning.refreshBootObservation (m : Machine) (d : DriverClasses) (l : Learning) : Learning :=
  let fabric := computeFabricProfile m
  let stable := (getSummary m.health).level == .stable
  let points (c : Bool) (n : Int) : Int := if c then n else 0
  let globalBias : Int := points (m.tier == .high) 1 - points (m.tier == .low) 1 -
    points (!fabric.acpiReady) 1 - points (!fabric.ecamAvailable && 4 < fabric.pciTotalFunctions) 1 +
    points stable 1 - points (m.drivers.readyCount < m.matchedDevices) 1
  let globalConfidence := clampU8 (fabric.compatibilityScore + if stable then 10 else -10)
  let l := Learning.recomputeTuning { l with
    globalConfidence := globalConfidence
    ioAggressivenessBias := clampI8 globalBias (-2) 2 }
  (bootConfidences m d globalConfidence).foldl (fun l c => l.setConfidence c.1 (clampU8 c.2)) l

structure IoProfile where
  readyControllers : Nat
  degradedControllers : Nat
  pcieIoDevices : Nat
  recommendedQueueDepth : Nat
  recommendedPollBudget : Nat
  recommendedDmaWindowKib : Nat
  deriving DecidableEq, Repr

/-- The depths and windows of the three modes of `compute_io_profile`. -/
def ioModeDefaults (m : Machine) (fabric : FabricProfile) (readyControllers degradedControllers : Nat) :
    Nat × Nat × Nat :=
  if 0 < degradedControllers || m.tier == .low || !fabric.acpiReady ||
      !fabric.ecamAvailable && 4 < fabric.pciTotalFunctions || m.drivers.observeOnly then
    (8, 256, 64)
  else if m.tier == .high && 2 ≤ readyControllers && fabric.ecamAvailable &&
      75 ≤ fabric.compatibilityScore && 0 < fabric.pciMsiCapableFunctions then
    (32, 1024, 256)
  else (16, 512, 128)

def computeIoProfile (m : Machine) (l : Learning) : IoProfile :=
  let readyControllers := m.drivers.readyCount % 2 ^ 8
  let degradedControllers := m.drivers.degradedCount % 2 ^ 8
  let (queue, poll, dma) :=
    ioModeDefaults m (computeFabricProfile m) readyControllers degradedControllers
  let queue := if m.drivers.queueDepthHint ≠ 0 then m.drivers.queueDepthHint else queue
  let poll := if m.drivers.pollBudgetHint ≠ 0 then m.drivers.pollBudgetHint else poll
  let dma := if m.drivers.dmaWindowKibHint ≠ 0 then m.drivers.dmaWindowKibHint else dma
  let tuned (hint tunedHint : Nat) (step : Int) (clamp : Int → Nat) : Nat :=
    if l.globalConfidence = 0 then hint
    else if tunedHint ≠ 0 then clamp tunedHint
    else clamp (hint + l.ioAggressivenessBias * step)
  { readyControllers := readyControllers
    degradedControllers := degradedControllers
    pcieIoDevices := m.drivers.pcieDeviceCount % 2 ^ 8
    recommendedQueueDepth := tuned queue l.tunedQueueDepth 4 (clampU16 · 8 64)
    recommendedPollBudget := tuned poll l.tunedPollBudget 128 (clampU16 · 128 2048)
    recommendedDmaWindowKib := tuned dma l.tunedDmaWindowKib 32 (clampU32 · 32 512) }

inductive OperatorMode where
  | stabilize
  | balance
  | explore
  deriving DecidableEq, Repr

/-- `agent_main_ai_profile_t`, the scores and what is decided from them. -/
structure MainAiProfile where
  staticScore : Nat
  chaosScore : Nat
  scoX100 : Int
  mode : OperatorMode
  memoryOnlyBias : Bool
  deriving DecidableEq, Repr

/-- The six scores for stability of `compute_agent_main_profile`. -/
def staticScores (m : Machine) (l : Learning) (health : Summary) (io : IoProfile) : List Nat :=
  let byLevel (stable degraded lowest : Int) : Int := match health.level with
    | .stable => stable
    | .degraded => degraded
    | .unsafeLevel => lowest
  let byTier (high low mid : Int) : Int := match m.tier with
    | .high => high
    | .low => low
    | .mid => mid
  [clampU8 (byLevel 92 64 28),
   clampU8 (45 + (if health.autonomyAllowed then 30 else 0) + byTier 10 0 0),
   clampU8 (40 + ((l.globalConfidence / 2 : Nat) : Int)),
   clampU8 (88 - (l.rejectedSubmissions : Int) * 4 - (l.appliedFailures : Int) * 3),
   clampU8 (byTier 82 46 64 + (io.readyControllers : Int) * 5 - (io.degradedControllers : Int) * 10),
   clampU8 (byLevel 90 58 18)]

/-- The six scores for change of `compute_agent_main_profile`. -/
def chaosScores (m : Machine) (l : Learning) (health : Summary) (fabric : FabricProfile)
    (io : IoProfile) : List Nat :=
  [clampU8 (22 + (fabric.pciPcieFunctions : Int) * 4 + (io.pcieIoDevices : Int) * 6),
   clampU8 (18 + (l.appliedFailures : Int) * 6 + (l.rejectedSubmissions : Int) * 4),
   clampU8 (100 - (fabric.compatibilityScore : Int) + (io.degradedControllers : Int) * 5),
   clampU8 (20 + (io.readyControllers : Int) * 8 + if m.tier = .high then 18 else 0),
   clampU8 (12 + (health.degradedCount : Int) * 7 + (health.unknownCount : Int) * 4 +
     (io.degradedControllers : Int) * 8),
   clampU8 (18 + (fabric.pciTotalFunctions : Int) * 2 + (io.readyControllers : Int) * 4)]

def computeAgentMainProfile (m : Machine) (l : Learning) (health : Summary)
    (fabric : FabricProfile) (io : IoProfile) : MainAiProfile :=
  let staticScore := clampU8 ((staticScores m l health io).sum / 6 : Nat)
  let chaosScore := clampU8 ((chaosScores m l health fabric io).sum / 6 : Nat)
  let sco : Int := ((chaosScore : Int) - staticScore) * 100
  let mode : OperatorMode := if sco ≤ -800 then .stabilize else if 800 ≤ sco then .explore
    else .balance
  { staticScore := staticScore
    chaosScore := chaosScore
    scoX100 := sco
    mode := mode
    memoryOnlyBias := match mode with
      | .stabilize => true
      | .explore => false
      | .balance => !health.autonomyAllowed }

/-- `agent_pipeline_profile_t`, the preferences the access profile reads. -/
structure PipelineProfile where
  zeroCopyPreferred : Bool
  deviceNodesPreferred : Bool
  sharedInferRingPreferred : Bool
  deriving DecidableEq, Repr

def computeAgentPipelineProfile (io : IoProfile) : PipelineProfile :=
  let zeroCopy := decide (0 < io.readyControllers)
  { zeroCopyPreferred := zeroCopy
    deviceNodesPreferred := 0 < io.pcieIoDevices || 0 < io.readyControllers
    sharedInferRingPreferred := zeroCopy || 16 ≤ io.recommendedQueueDepth }

def SLM_USER_HW_ACCESS_F_BOOTSTRAP_SNAPSHOT : BitVec 16 := 1 <<< 0
def SLM_USER_HW_ACCESS_F_SHARED_RING : BitVec 16 := 1 <<< 1
def SLM_USER_HW_ACCESS_F_ZERO_COPY_WINDOW : BitVec 16 := 1 <<< 2
def SLM_USER_HW_ACCESS_F_DEVICE_NODES : BitVec 16 := 1 <<< 3
def SLM_USER_HW_ACCESS_F_MEDIATED_IO : BitVec 16 := 1 <<< 4
def SLM_USER_HW_ACCESS_F_RISKY_IO_ALLOWED : BitVec 16 := 1 <<< 5

/-- `slm_user_hw_access_profile_t`, the flags and the score. -/
structure UserHwAccess where
  capabilityFlags : BitVec 16
  accessScore : Nat
  deriving DecidableEq, Repr

def computeUserHwAccessProfile (m : Machine) (health : Summary) (io : IoProfile)
    (mainAi : MainAiProfile) (pipeline : PipelineProfile) : UserHwAccess :=
  let memoryOnly := mainAi.memoryOnlyBias || io.readyControllers == 0 || health.level != .stable
  let flag (c : Bool) (f : BitVec 16) : BitVec 16 := if c then f else 0
  let points (c : Bool) (n : Int) : Int := if c then n else 0
  { capabilityFlags := SLM_USER_HW_ACCESS_F_BOOTSTRAP_SNAPSHOT |||
      SLM_USER_HW_ACCESS_F_MEDIATED_IO |||
      flag pipeline.sharedInferRingPreferred SLM_USER_HW_ACCESS_F_SHARED_RING |||
      flag pipeline.zeroCopyPreferred SLM_USER_HW_ACCESS_F_ZERO_COPY_WINDOW |||
      flag pipeline.deviceNodesPreferred SLM_USER_HW_ACCESS_F_DEVICE_NODES |||
      flag health.riskyIoAllowed SLM_USER_HW_ACCESS_F_RISKY_IO_ALLOWED
    accessScore := clampU8 (30 + points m.userModeReady 20 + (io.readyControllers : Int) * 10 -
      (io.degradedControllers : Int) * 12 + points pipeline.sharedInferRingPreferred 10 +
      points pipeline.zeroCopyPreferred 8 + points pipeline.deviceNodesPreferred 6 +
      points health.riskyIoAllowed 6 + points (health.level == .stable) 10 -
      points (health.level == .unsafeLevel) 25 - points memoryOnly 8) }

/-- The access profile as `read_effective_nodebit` computes it. -/
def userHwAccess (m : Machine) (l : Learning) : UserHwAccess :=
  let health := getSummary m.health
  let fabric := computeFabricProfile m
  let io := computeIoProfile m l
  let mainAi := computeAgentMainProfile m l health fabric io
  computeUserHwAccessProfile m health io mainAi (computeAgentPipelineProfile io)

end AiosKernel.Slm
