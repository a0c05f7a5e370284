/-
# `AiosKernel.MemoryFabric.Model` — shared windows of `kernel/mm/memory_fabric.c`

A window shares a tensor between memory domains and holds one reference on it.
The tables are kept under `g_fabric_lock`, but the tensor manager is called
outside of it: `window_share` looks the tensor up and takes its reference before
the locked section, and a reference is dropped after it.  Each locked section is
a function of its own here (`shareLocked`, `attachLocked`, `releaseLocked`), so
that calls can be interleaved where the source lets go of the lock.

The arrays are lists of the entries in use; the clock is an argument.
-/
import AiosKernel.TensorMm.Model

namespace AiosKernel.MemoryFabric

open TensorMm (MmState MemRegion TensorAlloc tensorInfo tensorRef tensorUnref)
open Word

def MEMORY_FABRIC_MAX_DOMAINS : Nat := 16
def MEMORY_FABRIC_MAX_WINDOWS : Nat := 64

inductive Access where
  | «private»
  | sharedRo
  | sharedRw
  | dmaStream
  deriving DecidableEq, Repr

/-- `memory_domain_t`, without the fields that only the domain calls and the dump read. -/
structure Domain where
  domainId : Nat
  active : Bool
  attachedWindows : Nat
  lastActivityNs : Nat
  deriving DecidableEq, Repr

/-- `memory_shared_window_t`. -/
structure Window where
  windowId : Nat
  tensorId : Nat
  ownerDomainId : Nat
  region : MemRegion
  access : Access
  sizeBytes : Nat
  readerMask : BitVec 32
  writerMask : BitVec 32
  pinned : Bool
  dmaCapable : Bool
  active : Bool
  mapCount : Nat
  lastAccessNs : Nat
  deriving DecidableEq, Repr

def Window.zero : Window := ⟨0, 0, 0, .kernel, .private, 0, 0, 0, false, false, false, 0, 0⟩

/-- What the file keeps: the entries below `g_domain_count` and `g_window_count`. -/
structure State where
  domains : List Domain
  windows : List Window
  nextWindowId : Nat
  deriving DecidableEq, Repr

/-- `clamp_u16_value`, for a value that is not negative. -/
def clampU16Value (value lo hi : Nat) : Nat :=
  if value < lo then lo else if hi < value then hi else value

def domainBit (domainId : Nat) : BitVec 32 :=
  if domainId = 0 || 32 < domainId then 0 else 1 <<< (domainId - 1)

def findDomainLocked (s : State) (domainId : Nat) : Option Nat :=
  s.domains.findIdx? fun d => d.active && d.domainId == domainId

def findWindowLocked (s : State) (windowId : Nat) : Option Nat :=
  s.windows.findIdx? fun w => w.active && w.windowId == windowId

/-- `alloc_window_slot_locked`: an inactive entry is used again before a new one is taken. -/
def allocWindowSlotLocked (s : State) : Option (Nat × State) :=
  match s.windows.findIdx? fun w => !w.active with
  | some i => some (i, s)
  | none =>
    if MEMORY_FABRIC_MAX_WINDOWS ≤ s.windows.length then none
    else some (s.windows.length, { s with windows := s.windows ++ [Window.zero] })

/-- One entry of `update_window_accounting_locked`. -/
def Domain.account (d : Domain) (mask : BitVec 32) (attach : Bool) : Domain :=
  if mask &&& domainBit d.domainId = 0 then d
  else if attach then { d with attachedWindows := clampU16Value (d.attachedWindows + 1) 0 0xFFFF }
  else { d with attachedWindows := d.attachedWindows - 1 }

/-- `update_window_accounting_locked`, with a delta of 1 or −1. -/
def updateWindowAccountingLocked (mask : BitVec 32) (attach : Bool) (s : State) : State :=
  { s with domains := s.domains.map fun d => d.account mask attach }

/-- Write `last_activity_ns` of a domain. -/
def State.touchDomain (s : State) (i now : Nat) : State :=
  { s with domains := s.domains.modify i fun d => { d with lastActivityNs := now } }

/-- `memory_fabric_domain_open`; returns the domain's id on success.  Domains are never closed, so
`g_next_domain_id` is one more than their number. -/
def domainOpen (now : Nat) (s : State) : (AiosStatus × Option Nat) × State :=
  if MEMORY_FABRIC_MAX_DOMAINS ≤ s.domains.length then ((.errBusy, none), s)
  else
    let domain : Domain := ⟨s.domains.length + 1, true, 0, now⟩
    ((.ok, some domain.domainId), { s with domains := s.domains ++ [domain] })

/-- `seed_default_domains`: the main, memory and device domains and one to four workers.  The clock
is read once for each domain. -/
def seedDefaultDomains (recommendedAgentSlots : Nat) (clock : Nat → Nat) (s : State) : State :=
  let s := { s with domains := [] }
  let s := (domainOpen (clock 0) s).2
  let s := (domainOpen (clock 1) s).2
  let s := (domainOpen (clock 2) s).2
  let workers := if 3 < recommendedAgentSlots then recommendedAgentSlots - 3 else 1
  let workers := if 4 < workers then 4 else workers
  (List.range workers).foldl (fun s i => (domainOpen (clock (3 + i)) s).2) s

/-- `memory_fabric_init`; of the profile it computes, only the number of agent slots matters here. -/
def memoryFabricInit (recommendedAgentSlots : Nat) (clock : Nat → Nat) : State :=
  seedDefaultDomains recommendedAgentSlots clock ⟨[], [], 1⟩

/-- The arguments of `memory_fabric_window_share` other than `window_id_out`. -/
structure ShareRequest where
  ownerDomainId : Nat
  tensorId : Nat
  readerMask : BitVec 32
  writerMask : BitVec 32
  access : Access
  deriving DecidableEq, Repr

def ShareRequest.window (q : ShareRequest) (tensor : TensorAlloc) (windowId now : Nat) : Window where
  windowId := windowId
  tensorId := q.tensorId
  ownerDomainId := q.ownerDomainId
  region := tensor.region
  access := q.access
  sizeBytes := tensor.size
  readerMask := q.readerMask ||| domainBit q.ownerDomainId ||| q.writerMask
  writerMask := q.writerMask ||| domainBit q.ownerDomainId
  pinned := tensor.pinned
  dmaCapable := tensor.dmaCapable
  active := true
  mapCount := 1
  lastAccessNs := now

/-- The locked section of `memory_fabric_window_share`; returns the window's id on success. -/
def shareLocked (q : ShareRequest) (tensor : TensorAlloc) (now : Nat) (s : State) :
    (AiosStatus × Option Nat) × State :=
  match findDomainLocked s q.ownerDomainId with
  | none => ((.errInval, none), s)
  | some owner =>
    match allocWindowSlotLocked s with
    | none => ((.errBusy, none), s)
    | some (slot, s) =>
      let window := q.window tensor s.nextWindowId now
      let s := { s with
        windows := s.windows.set slot window
        nextWindowId := u32 (s.nextWindowId + 1) }
      let s := updateWindowAccountingLocked (window.readerMask ||| window.writerMask) true s
      ((.ok, some window.windowId), s.touchDomain owner now)

/-- `memory_fabric_window_attach`, all of it under the lock. -/
def attachLocked (windowId domainId : Nat) (writeAccess : Bool) (now : Nat) (s : State) :
    AiosStatus × State :=
  let mask := domainBit domainId
  if mask = 0 then (.errInval, s)
  else
    match findWindowLocked s windowId, findDomainLocked s domainId with
    | some i, some d =>
      let window := s.windows.getD i Window.zero
      if window.readerMask &&& mask = 0 then (.errPerm, s)
      else if writeAccess && window.writerMask &&& mask == 0 then (.errPerm, s)
      else
        let s := { s with windows := s.windows.modify i fun w =>
          { w with mapCount := clampU16Value (w.mapCount + 1) 1 0xFFFF, lastAccessNs := now } }
        (.ok, s.touchDomain d now)
    | _, _ => (.errInval, s)

/-- The locked section of `memory_fabric_window_release`: `none` if there is no such window, else
the tensor whose reference is to be dropped. -/
def releaseLocked (windowId : Nat) (s : State) : Option Nat × State :=
  match findWindowLocked s windowId with
  | none => (none, s)
  | some i =>
    let window := s.windows.getD i Window.zero
    let s := updateWindowAccountingLocked (window.readerMask ||| window.writerMask) false s
    (some window.tensorId, { s with windows := s.windows.modify i fun w =>
      { w with active := false, readerMask := 0, writerMask := 0, mapCount := 0 } })

/-- `memory_fabric_window_share`, not interrupted. -/
def windowShare (q : ShareRequest) (now : Nat) (mm : MmState) (s : State) :
    Outcome ((AiosStatus × Option Nat) × MmState × State) :=
  if q.tensorId = 0 then .done ((.errInval, none), mm, s)
  else
    match tensorInfo q.tensorId mm with
    | none => .done ((.errInval, none), mm, s)
    | some tensor =>
      match tensorRef q.tensorId mm with
      | (.ok, mm) =>
        match shareLocked q tensor now s with
        | ((.ok, windowId), s) => .done ((.ok, windowId), mm, s)
        | ((status, _), s) => do
          let (_, mm) ← tensorUnref q.tensorId mm
          .done ((status, none), mm, s)
      | (status, mm) => .done ((status, none), mm, s)

/-- `memory_fabric_window_release`, not interrupted. -/
def windowRelease (windowId : Nat) (mm : MmState) (s : State) :
    Outcome (AiosStatus × MmState × State) :=
  match releaseLocked windowId s with
  | (none, s) => .done (.errInval, mm, s)
  | (some tensorId, s) => do
    let (status, mm) ← tensorUnref tensorId mm
    .done (status, mm, s)

end AiosKernel.MemoryFabric
