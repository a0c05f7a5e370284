/-
# `AiosKernel.Process.Model` — the two bootstrap processes and their event journal

The calls of `kernel/core/process.c` on an explicit state.  A process is named
by its slot, a pointer to one is an `Option Slot`, and a guard belongs to the
caller, so that a call takes it and gives it back.  The address-space and
`rsp0` calls below are those of `AddressSpace` and `UserMode`.

Of a kernel stack only the floor word is kept, the one place the file reads.
-/
import AiosKernel.UserMode
import AiosKernel.Lib.Word

namespace AiosKernel.Process

open Word
open AddressSpace (Slot RFLAGS_IF_BIT AIOS_BOOTSTRAP_USER_BASE BootstrapSlot slotSeal slotPrepare)
open UserMode (AIOS_USER_KERNEL_STACK_SIZE AIOS_RING3_ENTRY_FRAME_SIZE AIOS_USER_CS_RPL3
  AIOS_USER_DS_RPL3 AIOS_BOOTSTRAP_USER_END)

/-! ## Types -/

def BOOTSTRAP_PROCESS_COUNT : Nat := AddressSpace.ADDRESS_SPACE_BOOTSTRAP_USER_SLOT_COUNT
def BOOTSTRAP_PROCESS_PID_BASE : Nat := 1
def BOOTSTRAP_PROCESS_EVENT_SCHEMA : Nat := 1
def BOOTSTRAP_PROCESS_EVENT_CAPACITY : Nat := 8
def BOOTSTRAP_PROCESS_EVENTS_PER_RUN : Nat := 3
def PROCESS_STACK_FLOOR_CANARY : BitVec 64 := 0x50524F434B535447
def TRAPFRAME_SIZE : BitVec 64 := 176

/-- `~0ULL` as a counter. -/
def U64_MAX : Nat := 2 ^ 64 - 1

structure InterruptFrame where
  r15 : BitVec 64
  r14 : BitVec 64
  r13 : BitVec 64
  r12 : BitVec 64
  r11 : BitVec 64
  r10 : BitVec 64
  r9 : BitVec 64
  r8 : BitVec 64
  rbp : BitVec 64
  rdi : BitVec 64
  rsi : BitVec 64
  rdx : BitVec 64
  rcx : BitVec 64
  rbx : BitVec 64
  rax : BitVec 64
  intNo : BitVec 64
  errCode : BitVec 64
  rip : BitVec 64
  cs : BitVec 64
  rflags : BitVec 64
  rsp : BitVec 64
  ss : BitVec 64
  deriving DecidableEq, Repr

def InterruptFrame.zero : InterruptFrame :=
  ⟨0, 0, 0, 0, 0, 0, 0, 0, 0, 0, 0, 0, 0, 0, 0, 0, 0, 0, 0, 0, 0, 0⟩

def interruptFrameFromUser (frame : InterruptFrame) : Bool := frame.cs &&& 0x3 == 0x3

/-- `bootstrap_user_run_state_t`, as the file reads and resets it. -/
structure RunState where
  kernelResumeRsp : BitVec 64
  userSyscalls : Nat
  int80Entries : Nat
  exitCode : BitVec 64
  entryRspMin : BitVec 64
  entryRspMax : BitVec 64
  exited : Bool
  deriving DecidableEq, Repr

structure TrapSnapshot where
  frame : InterruptFrame
  frameAddr : BitVec 64
  captureSequence : Nat
  runGeneration : Nat
  ownerCr3 : BitVec 64
  ownerRsp0 : BitVec 64
  captures : Nat
  ownerPid : Nat
  ownerSlot : Nat
  evidenceValid : Bool
  ownerBound : Bool
  frameCopied : Bool
  fromUser : Bool
  frameAddrExact : Bool
  cr3Matched : Bool
  rsp0Matched : Bool
  resumeReady : Bool
  deriving DecidableEq, Repr

def TrapSnapshot.zero : TrapSnapshot :=
  ⟨.zero, 0, 0, 0, 0, 0, 0, 0, 0, false, false, false, false, false, false, false, false⟩

inductive EventKind where
  | invalid
  | acquire
  | trapCapture
  | release
  | count
  deriving DecidableEq, Repr

inductive EventReason where
  | invalid
  | activatePublish
  | breakpointCapture
  | restorePublish
  | count
  deriving DecidableEq, Repr

inductive EventOutcome where
  | invalid
  | committed
  | count
  deriving DecidableEq, Repr

structure ProcessEvent where
  eventSequence : Nat
  runGeneration : Nat
  captureSequence : Nat
  fromCr3 : BitVec 64
  toCr3 : BitVec 64
  fromRsp0 : BitVec 64
  toRsp0 : BitVec 64
  frameAddr : BitVec 64
  frameRip : BitVec 64
  frameRsp : BitVec 64
  frameRflags : BitVec 64
  frameCs : BitVec 64
  frameSs : BitVec 64
  frameIntNo : BitVec 64
  frameErrCode : BitVec 64
  fromPid : Nat
  toPid : Nat
  currentPid : Nat
  schema : Nat
  slot : Nat
  kind : EventKind
  reason : EventReason
  outcome : EventOutcome
  ownerOk : Bool
  cr3Ok : Bool
  rsp0Ok : Bool
  ifDisabled : Bool
  snapshotRef : Bool
  frameValid : Bool
  frameFromUser : Bool
  frameAddrExact : Bool
  directSwitch : Bool
  resumeReady : Bool
  valid : Bool
  deriving DecidableEq, Repr

def ProcessEvent.zero : ProcessEvent :=
  ⟨0, 0, 0, 0, 0, 0, 0, 0, 0, 0, 0, 0, 0, 0, 0, 0, 0, 0, 0, 0, .invalid, .invalid, .invalid,
    false, false, false, false, false, false, false, false, false, false, false⟩

/-- `address_space_bootstrap_slot_t`, zeroed. -/
def zeroSpace : BootstrapSlot := ⟨0, 0, 0, 0, 0, false, false⟩

structure BootstrapProcess where
  pid : Nat
  slot : Nat
  addressSpace : BootstrapSlot
  runState : RunState
  kernelStackBase : BitVec 64
  kernelStackTop : BitVec 64
  kernelStackSize : BitVec 64
  prepared : Bool
  active : Bool
  runGeneration : Nat
  trapSnapshot : TrapSnapshot
  deriving DecidableEq, Repr

def BootstrapProcess.zero : BootstrapProcess :=
  ⟨0, 0, zeroSpace, ⟨0, 0, 0, 0, 0, 0, false⟩, 0, 0, 0, false, false, 0, .zero⟩

structure ProcessGuard where
  addressSpace : AddressSpace.Guard
  rsp0 : UserMode.Rsp0Guard
  int80Entries : Nat
  rsp0Changed : Bool
  allInt80EntriesInStack : Bool
  kernelStackFloorCanaryOk : Bool
  leafSealed : Bool
  nxEnforced : Bool
  active : Bool
  deriving DecidableEq, Repr

def ProcessGuard.zero : ProcessGuard :=
  ⟨.zero, .zero, 0, false, false, false, false, false, false⟩

/-- `bootstrap_process_stats_t`, without the four fields `bootstrap_process_get_stats` fills in
from the journal's counters. -/
structure Stats where
  slots : Nat
  ownedProcesses : Nat
  currentPid : Nat
  lastPid : Nat
  completedRuns : Nat
  rsp0Publishes : Nat
  rsp0Restores : Nat
  ownershipSelftestPassed : Bool
  uniqueCr3 : Bool
  uniqueBacking : Bool
  uniqueKernelStack : Bool
  tssRsp0Baseline : Bool
  deriving DecidableEq, Repr

def Stats.zero : Stats := ⟨0, 0, 0, 0, 0, 0, 0, false, false, false, false, false⟩

/-- What the calls read and never write: the address-space platform, where the linker put the
kernel stacks, and how `rsp0` takes its stores. -/
structure Platform where
  space : AddressSpace.Platform
  kernelStacks : Slot → BitVec 64
  rsp0After : Nat → BitVec 64 → BitVec 64

/-- The static variables of the file, and the state of the two files it calls. -/
structure State where
  processes : Slot → BootstrapProcess
  stackFloor : Slot → BitVec 64
  current : Option Slot
  stats : Stats
  events : Nat → ProcessEvent
  eventCount : Nat
  eventSequence : Nat
  eventDropped : Nat
  eventOverflow : Bool
  baselineCr3 : BitVec 64
  baselineRsp0 : BitVec 64
  trapCaptureSequence : Nat
  initialized : Bool
  mm : AddressSpace.State
  um : UserMode.State

namespace State

def setProcess (s : State) (i : Slot) (q : BootstrapProcess) : State :=
  { s with processes := Function.update s.processes i q }

def readCr3 (s : State) : BitVec 64 := s.mm.cr3

def readRflags (s : State) : BitVec 64 := s.mm.rflags

/-- `user_mode_rsp0_read`. -/
def readRsp0 (s : State) : BitVec 64 := s.um.tssRsp0

end State

/-! ## Checks -/

def runStateReset : RunState := ⟨0, 0, 0, 0, BitVec.allOnes 64, 0, false⟩

def stackReset (s : State) (i : Slot) : State :=
  { s with stackFloor := Function.update s.stackFloor i PROCESS_STACK_FLOOR_CANARY }

def stackFloorCanaryOk (s : State) (i : Slot) : Bool :=
  s.stackFloor i == PROCESS_STACK_FLOOR_CANARY

/-- `process_descriptor_valid` of the descriptor in slot `i`. -/
def processDescriptorValid (p : Platform) (s : State) (i : Slot) : Bool :=
  let q := s.processes i
  let expectedBase := p.kernelStacks i
  let expectedTop := expectedBase + AIOS_USER_KERNEL_STACK_SIZE
  q.slot == i.val && q.pid == BOOTSTRAP_PROCESS_PID_BASE + q.slot &&
    q.kernelStackSize == AIOS_USER_KERNEL_STACK_SIZE &&
    q.kernelStackBase == expectedBase && q.kernelStackTop == expectedTop &&
    expectedTop &&& 0xF == 0 && q.addressSpace.slot == q.slot && q.addressSpace.ready

def processEventFrameEmpty (e : ProcessEvent) : Bool :=
  e.captureSequence == 0 && e.frameAddr == 0 && e.frameRip == 0 && e.frameRsp == 0 &&
    e.frameRflags == 0 && e.frameCs == 0 && e.frameSs == 0 && e.frameIntNo == 0 &&
    e.frameErrCode == 0 && !e.snapshotRef && !e.frameValid && !e.frameFromUser &&
    !e.frameAddrExact

def inUserWindow (address : BitVec 64) : Bool :=
  decide (address ≥ AIOS_BOOTSTRAP_USER_BASE) && decide (address < AIOS_BOOTSTRAP_USER_END)

/-- The flags of a user breakpoint: bit 1 and AC set, DF clear. -/
def userRflagsOk (rflags : BitVec 64) : Bool :=
  Flag.test rflags 1 && !Flag.test rflags 10 && Flag.test rflags 18

def processEventFrameValid (e : ProcessEvent) (q : BootstrapProcess) : Bool :=
  e.captureSequence != 0 && e.snapshotRef && e.frameValid && e.frameFromUser &&
    e.frameAddrExact && e.frameIntNo == 3 && e.frameErrCode == 0 &&
    e.frameCs == AIOS_USER_CS_RPL3 && e.frameSs == AIOS_USER_DS_RPL3 &&
    inUserWindow e.frameRip && inUserWindow e.frameRsp &&
    e.frameAddr == q.kernelStackTop - TRAPFRAME_SIZE && userRflagsOk e.frameRflags

/-- The switch of `process_event_fields_valid` over the kind of the event. -/
def processEventKindValid (s : State) (e : ProcessEvent) (q : BootstrapProcess) : Bool :=
  match e.kind with
  | .acquire =>
    e.reason == .activatePublish && e.fromPid == 0 && e.toPid == q.pid &&
      e.currentPid == q.pid && e.fromCr3 == s.baselineCr3 &&
      e.toCr3 == q.addressSpace.cr3 && e.fromRsp0 == s.baselineRsp0 &&
      e.toRsp0 == q.kernelStackTop && processEventFrameEmpty e
  | .trapCapture =>
    e.reason == .breakpointCapture && e.fromPid == q.pid && e.toPid == q.pid &&
      e.currentPid == q.pid && e.fromCr3 == q.addressSpace.cr3 &&
      e.toCr3 == q.addressSpace.cr3 && e.fromRsp0 == q.kernelStackTop &&
      e.toRsp0 == q.kernelStackTop && processEventFrameValid e q
  | .release =>
    e.reason == .restorePublish && e.fromPid == q.pid && e.toPid == 0 &&
      e.currentPid == 0 && e.fromCr3 == q.addressSpace.cr3 &&
      e.toCr3 == s.baselineCr3 && e.fromRsp0 == q.kernelStackTop &&
      e.toRsp0 == s.baselineRsp0 &&
      (processEventFrameValid e q || processEventFrameEmpty e)
  | .invalid | .count => false

/-- `process_event_fields_valid` for the descriptor in slot `i`. -/
def processEventFieldsValid (p : Platform) (s : State) (e : ProcessEvent) (i : Slot) : Bool :=
  let q := s.processes i
  processDescriptorValid p s i && e.schema == BOOTSTRAP_PROCESS_EVENT_SCHEMA &&
    e.slot == q.slot && e.runGeneration != 0 && decide (e.runGeneration ≤ q.runGeneration) &&
    e.outcome == .committed && e.ownerOk && e.cr3Ok && e.rsp0Ok && e.ifDisabled &&
    !e.directSwitch && !e.resumeReady && processEventKindValid s e q

/-! ## The journal -/

def processEventPreflight (needed : Nat) (s : State) : AiosStatus × State :=
  if needed = 0 ∨ needed > BOOTSTRAP_PROCESS_EVENT_CAPACITY then (.errInval, s)
  else if s.eventCount > BOOTSTRAP_PROCESS_EVENT_CAPACITY - needed ∨
      s.eventSequence > U64_MAX - needed then
    (.errBusy, { s with eventDropped := u64 (s.eventDropped + 1), eventOverflow := true })
  else (.ok, s)

/-- An event as `process_event_append` leaves it in the journal. -/
def commit (e : ProcessEvent) (sequence : Nat) : ProcessEvent :=
  { e with eventSequence := sequence, valid := true }

/-- An event written at the end of the journal. -/
def appendEvent (e : ProcessEvent) (s : State) : State :=
  { s with
    events := Function.update s.events s.eventCount (commit e (s.eventSequence + 1))
    eventSequence := s.eventSequence + 1
    eventCount := s.eventCount + 1 }

def processEventAppend (p : Platform) (e : ProcessEvent) (i : Slot) (s : State) :
    AiosStatus × State :=
  if e.valid || !processEventFieldsValid p s e i then
    (.errIo, { s with eventDropped := u64 (s.eventDropped + 1) })
  else if s.eventCount ≥ BOOTSTRAP_PROCESS_EVENT_CAPACITY ∨ s.eventSequence = U64_MAX then
    (.errBusy, { s with eventDropped := u64 (s.eventDropped + 1), eventOverflow := true })
  else
    let previous := s.events (s.eventCount - 1)
    if s.eventCount > 0 ∧
        (previous.valid = false ∨ previous.eventSequence ≠ s.eventSequence) then
      (.errIo, { s with eventDropped := u64 (s.eventDropped + 1) })
    else (.ok, appendEvent e s)

def processEventBindFrame (e : ProcessEvent) (captureSequence : Nat) (frameAddr : BitVec 64)
    (frame : InterruptFrame) (q : BootstrapProcess) : ProcessEvent :=
  if captureSequence = 0 then e
  else
    let fromUser := interruptFrameFromUser frame
    let addrExact := frameAddr == q.kernelStackTop - TRAPFRAME_SIZE
    { e with
      captureSequence := captureSequence
      frameAddr := frameAddr
      frameRip := frame.rip
      frameRsp := frame.rsp
      frameRflags := frame.rflags
      frameCs := frame.cs
      frameSs := frame.ss
      frameIntNo := frame.intNo
      frameErrCode := frame.errCode
      snapshotRef := true
      frameFromUser := fromUser
      frameAddrExact := addrExact
      frameValid := fromUser && addrExact && frame.intNo == 3 && frame.errCode == 0 &&
        frame.cs == AIOS_USER_CS_RPL3 && frame.ss == AIOS_USER_DS_RPL3 &&
        inUserWindow frame.rip && inUserWindow frame.rsp && userRflagsOk frame.rflags }

/-! ## Ownership -/

/-- The body of the loop of `bootstrap_process_init`. -/
def initSlot (p : Platform) (s : State) (i : Slot) : AiosStatus × State :=
  let base := p.kernelStacks i
  let q := { s.processes i with
    pid := BOOTSTRAP_PROCESS_PID_BASE + i
    slot := i
    kernelStackBase := base
    kernelStackSize := AIOS_USER_KERNEL_STACK_SIZE
    kernelStackTop := base + AIOS_USER_KERNEL_STACK_SIZE
    runState := runStateReset
    trapSnapshot := .zero }
  let s := stackReset (s.setProcess i q) i
  match slotPrepare p.space i false (some q.addressSpace) s.mm with
  | (.ok, out, mm) =>
    let q := { q with addressSpace := out.getD q.addressSpace, prepared := true }
    let s := { s.setProcess i q with mm := mm }
    (.ok, { s with stats := { s.stats with ownedProcesses := s.stats.ownedProcesses + 1 } })
  | (status, _, mm) => (status, { s with mm := mm })

/-- The loop of `bootstrap_process_init`. -/
def initSlots (p : Platform) : List Slot → State → AiosStatus × State
  | [], s => (.ok, s)
  | i :: rest, s =>
    match initSlot p s i with
    | (.ok, s) => initSlots p rest s
    | (status, s) => (status, s)

/-- `bootstrap_process_init` up to its loop: everything the file owns is zeroed and the
baseline is what the registers hold. -/
def initReset (s : State) : State :=
  { s with
    processes := fun _ => .zero
    stats := .zero
    events := fun _ => .zero
    current := none
    eventCount := 0
    eventSequence := 0
    eventDropped := 0
    eventOverflow := false
    baselineCr3 := s.readCr3
    baselineRsp0 := s.readRsp0
    trapCaptureSequence := 0
    initialized := false }

/-- The ownership self-test at the end of `bootstrap_process_init`. -/
def initSelftest (p : Platform) (s : State) : AiosStatus × State :=
  let q₀ := s.processes 0
  let q₁ := s.processes 1
  let uniqueCr3 := q₀.addressSpace.cr3 != q₁.addressSpace.cr3
  let uniqueBacking := q₀.addressSpace.backingPhys != q₁.addressSpace.backingPhys
  let uniqueStack := q₀.kernelStackBase != q₁.kernelStackBase &&
    decide (q₀.kernelStackTop ≤ q₁.kernelStackBase)
  let tssRsp0Baseline := s.readRsp0 == s.baselineRsp0
  let passed := s.stats.ownedProcesses == BOOTSTRAP_PROCESS_COUNT &&
    processDescriptorValid p s 0 && processDescriptorValid p s 1 &&
    stackFloorCanaryOk s 0 && stackFloorCanaryOk s 1 &&
    uniqueCr3 && uniqueBacking && uniqueStack && tssRsp0Baseline
  let stats := { s.stats with
    slots := BOOTSTRAP_PROCESS_COUNT
    uniqueCr3 := uniqueCr3
    uniqueBacking := uniqueBacking
    uniqueKernelStack := uniqueStack
    tssRsp0Baseline := tssRsp0Baseline
    ownershipSelftestPassed := passed }
  let s := { s with stats := stats, initialized := passed }
  if passed then (.ok, s) else (.errIo, s)

def init (p : Platform) (s : State) : AiosStatus × State :=
  if s.current.isSome || (s.processes 0).active || (s.processes 1).active then (.errBusy, s)
  else if s.initialized then (.ok, s)
  else
    let s := initReset s
    if !s.um.ready || s.baselineCr3 == 0 || s.baselineRsp0 == 0 then (.errIo, s)
    else
      match initSlots p (List.finRange _) s with
      | (.ok, s) => initSelftest p s
      | (status, s) => (status, s)

/-- A descriptor made ready for its next run in the address space `space`. -/
def BootstrapProcess.nextRun (q : BootstrapProcess) (space : BootstrapSlot) :
    BootstrapProcess :=
  { q with
    addressSpace := space
    runState := runStateReset
    trapSnapshot := .zero
    runGeneration := q.runGeneration + 1
    prepared := true }

/-- `bootstrap_process_prepare`, with the process it stores through `out`. -/
def prepare (p : Platform) (slot : Nat) (executable : Bool) (s : State) :
    AiosStatus × Option Slot × State :=
  if h : s.initialized = true ∧ slot < AddressSpace.ADDRESS_SPACE_BOOTSTRAP_USER_SLOT_COUNT then
    let i : Slot := ⟨slot, h.2⟩
    let q := s.processes i
    if s.current.isSome || q.active then (.errBusy, none, s)
    else if q.runGeneration = U64_MAX then (.errIo, none, s)
    else
      match slotPrepare p.space slot executable (some q.addressSpace) s.mm with
      | (.ok, out, mm) =>
        let q := q.nextRun (out.getD q.addressSpace)
        (.ok, some i, stackReset { s.setProcess i q with mm := mm } i)
      | (status, _, mm) => (status, none, { s with mm := mm })
  else (.errInval, none, s)

def cancel (p : Platform) (i : Slot) (s : State) : AiosStatus × State :=
  let q := s.processes i
  if !s.initialized || !processDescriptorValid p s i || !q.prepared then (.errInval, s)
  else if s.current.isSome || q.active then (.errBusy, s)
  else
    let (status, _, mm) := slotSeal p.space q.slot s.mm
    (status, { s.setProcess i { q with prepared := false } with mm := mm })

/-- The part of `bootstrap_process_activate` between its checks and the publication of the
owner: the slot is entered, then the stack is published, and what cannot be completed is
undone as far as it can be. -/
def activateEnter (p : Platform) (i : Slot) (s : State) : AiosStatus × ProcessGuard × State :=
  let guard := ProcessGuard.zero
  let q := { s.processes i with runState := runStateReset }
  let s := s.setProcess i q
  match AddressSpace.activate p.space (some q.addressSpace) guard.addressSpace s.mm with
  | (.ok, ag, mm) =>
    let guard := { guard with addressSpace := ag }
    let s := { s with mm := mm }
    match UserMode.rsp0Publish p.rsp0After s.readRflags q.kernelStackBase q.kernelStackSize
        guard.rsp0 s.um with
    | (.ok, rg, um) =>
      let guard := { guard with rsp0 := rg }
      let s := { s with um := um }
      if rg.previousRsp0 = rg.publishedRsp0 then
        match UserMode.rsp0Restore p.rsp0After s.readRflags rg s.um with
        | (.ok, rg, um) =>
          let guard := { guard with rsp0 := rg }
          let s := { s with um := um }
          match AddressSpace.restore p.space guard.addressSpace s.mm with
          | (.ok, ag, mm) => (.errIo, { guard with addressSpace := ag }, { s with mm := mm })
          | (_, ag, mm) =>
            (.errIo, { guard with addressSpace := ag, active := true },
              { s with mm := mm })
        | (_, rg, um) =>
          (.errIo, { guard with rsp0 := rg, active := true }, { s with um := um })
      else (.ok, guard, s)
    | (status, rg, um) =>
      let guard := { guard with rsp0 := rg }
      let s := { s with um := um }
      if rg.active then (status, { guard with active := true }, s)
      else
        let (_, ag, mm) := AddressSpace.restore p.space guard.addressSpace s.mm
        (status, { guard with addressSpace := ag, active := ag.active || ag.irqRestorePending },
          { s with mm := mm })
  | (status, ag, mm) =>
    (status, { guard with addressSpace := ag, active := ag.active || ag.irqRestorePending },
      { s with mm := mm })

/-- The ACQUIRE event of `bootstrap_process_activate`. -/
def acquireEvent (i : Slot) (guard : ProcessGuard) (s : State) : ProcessEvent :=
  let q := s.processes i
  { ProcessEvent.zero with
    schema := BOOTSTRAP_PROCESS_EVENT_SCHEMA
    kind := .acquire
    reason := .activatePublish
    outcome := .committed
    runGeneration := q.runGeneration
    fromPid := 0
    toPid := q.pid
    currentPid := q.pid
    slot := q.slot
    fromCr3 := guard.addressSpace.previousCr3
    toCr3 := q.addressSpace.cr3
    fromRsp0 := guard.rsp0.previousRsp0
    toRsp0 := guard.rsp0.publishedRsp0
    ownerOk := s.current == some i && q.active && s.stats.currentPid == q.pid
    cr3Ok := s.readCr3 == q.addressSpace.cr3
    rsp0Ok := s.readRsp0 == guard.rsp0.publishedRsp0
    ifDisabled := !Flag.test s.readRflags RFLAGS_IF_BIT }

/-- The owner that `bootstrap_process_activate` publishes. -/
def publishOwner (i : Slot) (s : State) : State :=
  let q := s.processes i
  { s.setProcess i { q with active := true } with
    current := some i
    stats := { s.stats with
      currentPid := q.pid
      rsp0Publishes := u64 (s.stats.rsp0Publishes + 1)
      tssRsp0Baseline := false } }

def activate (p : Platform) (i : Slot) (guard : ProcessGuard) (s : State) :
    AiosStatus × ProcessGuard × State :=
  let q := s.processes i
  if !s.initialized || !processDescriptorValid p s i || !q.prepared then (.errInval, guard, s)
  else if guard.active || s.current.isSome || q.active then (.errBusy, guard, s)
  else
    match processEventPreflight BOOTSTRAP_PROCESS_EVENTS_PER_RUN s with
    | (.ok, s) =>
      match activateEnter p i s with
      | (.ok, guard, s) =>
        let guard := { guard with rsp0Changed := true, active := true }
        let s := publishOwner i s
        let (status, s) := processEventAppend p (acquireEvent i guard s) i s
        (status, guard, s)
      | (status, guard, s) => (status, guard, s)
    | (status, s) => (status, guard, s)

/-- The readable part of a trap snapshot: what `bootstrap_process_get_trap_snapshot` asks
of it. -/
def snapshotReadable (p : Platform) (s : State) (i : Slot) : Bool :=
  let q := s.processes i
  let snapshot := q.trapSnapshot
  processDescriptorValid p s i && snapshot.evidenceValid && snapshot.ownerBound &&
    snapshot.frameCopied && snapshot.fromUser && snapshot.frameAddrExact &&
    snapshot.cr3Matched && snapshot.rsp0Matched && !snapshot.resumeReady &&
    snapshot.captures == 1 && snapshot.captureSequence != 0 &&
    snapshot.runGeneration == q.runGeneration && snapshot.ownerPid == q.pid &&
    snapshot.ownerSlot == q.slot && snapshot.ownerCr3 == q.addressSpace.cr3 &&
    snapshot.ownerRsp0 == q.kernelStackTop

/-- `bootstrap_process_get_trap_snapshot`, with the snapshot it stores through `out`. -/
def getTrapSnapshot (p : Platform) (slot : Nat) (s : State) : AiosStatus × Option TrapSnapshot :=
  if h : s.initialized = true ∧ slot < AddressSpace.ADDRESS_SPACE_BOOTSTRAP_USER_SLOT_COUNT then
    let i : Slot := ⟨slot, h.2⟩
    if snapshotReadable p s i then (.ok, some (s.processes i).trapSnapshot) else (.errIo, none)
  else (.errInval, none)

/-- The RELEASE event of `bootstrap_process_finish`. -/
def releaseEvent (p : Platform) (i : Slot) (guard : ProcessGuard) (s : State) : ProcessEvent :=
  let q := s.processes i
  let event := { ProcessEvent.zero with
    schema := BOOTSTRAP_PROCESS_EVENT_SCHEMA
    kind := .release
    reason := .restorePublish
    outcome := .committed
    runGeneration := q.runGeneration
    fromPid := q.pid
    toPid := 0
    currentPid := 0
    slot := q.slot
    fromCr3 := q.addressSpace.cr3
    toCr3 := guard.addressSpace.previousCr3
    fromRsp0 := q.kernelStackTop
    toRsp0 := guard.rsp0.previousRsp0
    ownerOk := s.current.isNone && !q.active && s.stats.currentPid == 0
    cr3Ok := guard.addressSpace.cr3Restored && s.readCr3 == guard.addressSpace.previousCr3
    rsp0Ok := guard.rsp0.restored && s.readRsp0 == guard.rsp0.previousRsp0
    ifDisabled := !Flag.test s.readRflags RFLAGS_IF_BIT }
  match getTrapSnapshot p q.slot s with
  | (.ok, some snapshot) =>
    processEventBindFrame event snapshot.captureSequence snapshot.frameAddr snapshot.frame q
  | _ => event

/-- The boot ownership that `bootstrap_process_finish` publishes. -/
def publishBoot (i : Slot) (s : State) : State :=
  let q := s.processes i
  let s := s.setProcess i { q with active := false, prepared := false }
  let stats := { s.stats with currentPid := 0 }
  let stats :=
    if q.runState.exited && decide (q.runState.int80Entries > 0) then
      { stats with lastPid := q.pid, completedRuns := u64 (stats.completedRuns + 1) }
    else stats
  { s with
    current := none
    stats := { stats with tssRsp0Baseline := s.readRsp0 == s.baselineRsp0 } }

/-- `bootstrap_process_finish` from the publication of the boot ownership on. -/
def finishPublish (p : Platform) (i : Slot) (withinStack : Bool) (guard : ProcessGuard)
    (s : State) : AiosStatus × ProcessGuard × State :=
  let (sealStatus, nxEnforced, mm) := slotSeal p.space (s.processes i).slot s.mm
  let guard := { guard with nxEnforced := nxEnforced, leafSealed := sealStatus == .ok }
  let s := publishBoot i { s with mm := mm }
  if !withinStack || !guard.kernelStackFloorCanaryOk || !guard.rsp0.restored ||
      !guard.leafSealed || !s.stats.tssRsp0Baseline then
    (.errIo, { guard with active := true }, s)
  else
    match processEventAppend p (releaseEvent p i guard s) i s with
    | (.ok, s) =>
      let (irqStatus, ag, mm) := AddressSpace.restoreInterrupts guard.addressSpace s.mm
      let guard := { guard with
        addressSpace := ag
        active := irqStatus != .ok || ag.active || ag.irqRestorePending }
      (if irqStatus = .ok then .ok else .errIo, guard, { s with mm := mm })
    | (status, s) => (status, guard, s)

def finish (p : Platform) (i : Slot) (guard : ProcessGuard) (s : State) :
    AiosStatus × ProcessGuard × State :=
  let q := s.processes i
  if !processDescriptorValid p s i || !guard.active || s.current != some i || !q.active then
    (.errInval, guard, s)
  else
    let state := q.runState
    let expectedEntryRsp := q.kernelStackTop - AIOS_RING3_ENTRY_FRAME_SIZE
    let withinStack := state.int80Entries == 0 ||
      (decide (state.entryRspMin ≥ q.kernelStackBase) &&
        decide (state.entryRspMax < q.kernelStackTop))
    let guard := { guard with
      int80Entries := state.int80Entries
      allInt80EntriesInStack := decide (state.int80Entries > 0) && withinStack &&
        state.entryRspMin == expectedEntryRsp && state.entryRspMax == expectedEntryRsp
      kernelStackFloorCanaryOk := stackFloorCanaryOk s i }
    match UserMode.rsp0Restore p.rsp0After s.readRflags guard.rsp0 s.um with
    | (.ok, rg, um) =>
      let guard := { guard with rsp0 := rg }
      let stats := { s.stats with rsp0Restores := u64 (s.stats.rsp0Restores + 1) }
      let s := { s with um := um, stats := stats }
      match AddressSpace.restoreDeferredIrq p.space guard.addressSpace s.mm with
      | (.ok, ag, mm) =>
        finishPublish p i withinStack { guard with addressSpace := ag } { s with mm := mm }
      | (status, ag, mm) => (status, { guard with addressSpace := ag }, { s with mm := mm })
    | (status, rg, um) => (status, { guard with rsp0 := rg }, { s with um := um })

/-- The hardware and frame checks of `bootstrap_process_capture_current_trap`. -/
def trapFrameOk (s : State) (q : BootstrapProcess) (frameAddr : BitVec 64)
    (frame : InterruptFrame) : Bool :=
  !Flag.test s.readRflags RFLAGS_IF_BIT && !Flag.test s.readRflags 18 &&
    s.readCr3 == q.addressSpace.cr3 && s.readRsp0 == q.kernelStackTop &&
    frame.intNo == 3 && frame.errCode == 0 && interruptFrameFromUser frame &&
    frame.cs == AIOS_USER_CS_RPL3 && frame.ss == AIOS_USER_DS_RPL3 &&
    inUserWindow frame.rip && inUserWindow frame.rsp &&
    frameAddr == q.kernelStackTop - TRAPFRAME_SIZE && userRflagsOk frame.rflags

/-- The snapshot `bootstrap_process_capture_current_trap` takes, not yet evidence. -/
def takeSnapshot (s : State) (i : Slot) (frameAddr : BitVec 64) (frame : InterruptFrame) :
    TrapSnapshot :=
  let q := s.processes i
  { frame := frame
    frameAddr := frameAddr
    captureSequence := s.trapCaptureSequence + 1
    runGeneration := q.runGeneration
    ownerCr3 := s.readCr3
    ownerRsp0 := s.readRsp0
    captures := 1
    ownerPid := q.pid
    ownerSlot := q.slot
    evidenceValid := false
    ownerBound := s.current == some i
    -- the copy is compared with its source
    frameCopied := decide (frame = frame)
    fromUser := interruptFrameFromUser frame
    frameAddrExact := frameAddr == q.kernelStackTop - TRAPFRAME_SIZE
    cr3Matched := s.readCr3 == q.addressSpace.cr3
    rsp0Matched := s.readRsp0 == q.kernelStackTop
    resumeReady := false }

/-- The TRAP_CAPTURE event of `bootstrap_process_capture_current_trap`. -/
def captureEvent (s : State) (i : Slot) (frameAddr : BitVec 64) (frame : InterruptFrame) :
    ProcessEvent :=
  let q := s.processes i
  let event := { ProcessEvent.zero with
    schema := BOOTSTRAP_PROCESS_EVENT_SCHEMA
    kind := .trapCapture
    reason := .breakpointCapture
    outcome := .committed
    runGeneration := q.runGeneration
    fromPid := q.pid
    toPid := q.pid
    currentPid := q.pid
    slot := q.slot
    fromCr3 := s.readCr3
    toCr3 := s.readCr3
    fromRsp0 := s.readRsp0
    toRsp0 := s.readRsp0
    ownerOk := s.current == some i && q.active && s.stats.currentPid == q.pid
    cr3Ok := s.readCr3 == q.addressSpace.cr3
    rsp0Ok := s.readRsp0 == q.kernelStackTop
    ifDisabled := !Flag.test s.readRflags RFLAGS_IF_BIT }
  processEventBindFrame event (s.trapCaptureSequence + 1) frameAddr frame q

def setSnapshot (s : State) (i : Slot) (snapshot : TrapSnapshot) : State :=
  s.setProcess i { s.processes i with trapSnapshot := snapshot }

/-- `bootstrap_process_capture_current_trap`.  A frame comes with its address; `none` is a
null pointer. -/
def captureCurrentTrap (p : Platform) (frame : Option (BitVec 64 × InterruptFrame))
    (s : State) : AiosStatus × State :=
  match frame, s.current with
  | some (frameAddr, frame), some i =>
    let q := s.processes i
    if !s.initialized || !processDescriptorValid p s i || !q.prepared || !q.active ||
        q.runGeneration == 0 then (.errInval, s)
    else if q.trapSnapshot.evidenceValid then (.errBusy, s)
    else if s.trapCaptureSequence = U64_MAX then (.errIo, s)
    else if !trapFrameOk s q frameAddr frame then (.errIo, s)
    else
      let snapshot := takeSnapshot s i frameAddr frame
      if !snapshot.ownerBound || !snapshot.frameCopied || !snapshot.fromUser ||
          !snapshot.frameAddrExact || !snapshot.cr3Matched || !snapshot.rsp0Matched then
        (.errIo, setSnapshot s i .zero)
      else
        let event := captureEvent s i frameAddr frame
        match processEventAppend p event i (setSnapshot s i snapshot) with
        | (.ok, s) =>
          let s := { s with trapCaptureSequence := s.trapCaptureSequence + 1 }
          (.ok, setSnapshot s i { snapshot with evidenceValid := true })
        | (status, s) => (status, setSnapshot s i .zero)
  | _, _ => (.errInval, s)

/-- `bootstrap_process_get_event`, with the event it stores through `out`. -/
def getEvent (p : Platform) (index : Nat) (s : State) : AiosStatus × Option ProcessEvent :=
  if !s.initialized || decide (index ≥ s.eventCount) then (.errInval, none)
  else if s.current.isSome then (.errBusy, none)
  else
    let event := s.events index
    if h : event.slot < AddressSpace.ADDRESS_SPACE_BOOTSTRAP_USER_SLOT_COUNT then
      if event.valid && event.eventSequence == index + 1 &&
          processEventFieldsValid p s event ⟨event.slot, h⟩ then (.ok, some event)
      else (.errIo, none)
    else (.errIo, none)

end AiosKernel.Process
