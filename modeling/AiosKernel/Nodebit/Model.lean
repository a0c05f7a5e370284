/-
# `AiosKernel.Nodebit.Model` — the policy gate of `kernel/runtime/nodebit.c`

A table of 64 entries binds nodes to capability masks.  `nodebit_evaluate`
checks a request against the entry of the node and, for risky capabilities of a
gated node, against the health of the kernel, which is an argument here, as are
the readings of the clock.
-/
import AiosKernel.Health
import AiosKernel.Lib.Word

namespace AiosKernel.Nodebit

open Word

def NODEBIT_MAX_ENTRIES : Nat := 64
def NODEBIT_LABEL_MAX : Nat := 32

def NODEBIT_CAP_PLAN_APPLY : BitVec 64 := 1 <<< 4
def NODEBIT_CAP_AUTONOMY : BitVec 64 := 1 <<< 5
def NODEBIT_CAP_RISKY_IO : BitVec 64 := 1 <<< 8
def NODEBIT_CAP_DRIVER_RESET : BitVec 64 := 1 <<< 9
def NODEBIT_CAP_PIPELINE : BitVec 64 := 1 <<< 11
def NODEBIT_CAP_ALL : BitVec 64 := (1 <<< 12) - 1
def NODEBIT_CAP_RISKY_MASK : BitVec 64 :=
  NODEBIT_CAP_RISKY_IO ||| NODEBIT_CAP_DRIVER_RESET ||| NODEBIT_CAP_PLAN_APPLY |||
    NODEBIT_CAP_AUTONOMY

inductive Action where
  | permit
  | deny
  | defer
  | audit
  deriving DecidableEq, Repr

structure Entry where
  nodeId : Nat
  label : String
  capsAllowed : BitVec 64
  healthGate : Bool
  active : Bool
  deriving DecidableEq, Repr

structure NodeStats where
  nodeId : Nat
  evaluations : Nat
  permits : Nat
  denies : Nat
  healthBlocks : Nat
  lastDecisionNs : Nat
  evalTotalNs : Nat
  evalMinNs : Nat
  evalMaxNs : Nat
  workTotalNs : Nat
  workCount : Nat
  deriving DecidableEq, Repr

structure Decision where
  action : Action
  nodeId : Nat
  capsRequested : BitVec 64
  capsGranted : BitVec 64
  blockedByHealth : Bool
  tsNs : Nat
  deriving DecidableEq, Repr

/-- `g_entries`, `g_stats` and `g_ready`. -/
structure State where
  entries : List Entry
  stats : List NodeStats
  ready : Bool
  deriving DecidableEq, Repr

def Entry.zero : Entry := ⟨0, "", 0, false, false⟩

def init : State where
  entries := List.replicate NODEBIT_MAX_ENTRIES Entry.zero
  stats := List.replicate NODEBIT_MAX_ENTRIES ⟨0, 0, 0, 0, 0, 0, 0, 0, 0, 0, 0⟩
  ready := true

/-- The test of `find_entry_locked`. -/
def Entry.isFor (nodeId : Nat) (e : Entry) : Bool := e.active && e.nodeId == nodeId

def findEntryLocked (s : State) (nodeId : Nat) : Option Nat := s.entries.findIdx? (Entry.isFor nodeId)

def findFreeSlotLocked (s : State) : Option Nat := s.entries.findIdx? fun e => !e.active

def capsMaskValid (caps : BitVec 64) : Bool := caps &&& ~~~NODEBIT_CAP_ALL == 0

def copyLabel (src : String) : String := String.ofList (src.toList.take (NODEBIT_LABEL_MAX - 1))

/-- What `record_decision` writes. -/
def NodeStats.record (stats : NodeStats) (action : Action) (healthBlock : Bool)
    (startNs endNs : Nat) : NodeStats :=
  let latencyNs := sub64 endNs startNs
  let evaluations := u32 (stats.evaluations + 1)
  { stats with
    evaluations := evaluations
    permits := if action = .permit then u32 (stats.permits + 1) else stats.permits
    denies := if action = .permit then stats.denies else u32 (stats.denies + 1)
    healthBlocks := if healthBlock then u32 (stats.healthBlocks + 1) else stats.healthBlocks
    lastDecisionNs := endNs
    evalTotalNs := u64 (stats.evalTotalNs + latencyNs)
    evalMinNs := if evaluations = 1 || latencyNs < stats.evalMinNs then latencyNs
      else stats.evalMinNs
    evalMaxNs := if stats.evalMaxNs < latencyNs then latencyNs else stats.evalMaxNs }

/-- `record_decision`, for a node that has a slot. -/
def recordDecision (slot : Nat) (action : Action) (healthBlock : Bool) (startNs endNs : Nat)
    (s : State) : State :=
  { s with stats := s.stats.modify slot fun st => st.record action healthBlock startNs endNs }

/-- `nodebit_register`; a null label is `none`. -/
def register (nodeId : Nat) (label : Option String) (capsAllowed : BitVec 64) (healthGate : Bool)
    (s : State) : AiosStatus × State :=
  match label with
  | none => (.errInval, s)
  | some label =>
    if !s.ready || !capsMaskValid capsAllowed then (.errInval, s)
    else
      match findEntryLocked s nodeId with
      | some _ => (.errBusy, s)
      | none =>
        match findFreeSlotLocked s with
        | none => (.errNomem, s)
        | some slot =>
          (.ok, { s with
            entries := s.entries.set slot
              ⟨nodeId, copyLabel label, capsAllowed, healthGate, true⟩
            stats := s.stats.set slot ⟨nodeId, 0, 0, 0, 0, 0, 0, 0, 0, 0, 0⟩ })

def updateCaps (nodeId : Nat) (capsAllowed : BitVec 64) (s : State) : AiosStatus × State :=
  if !s.ready || !capsMaskValid capsAllowed then (.errInval, s)
  else
    match findEntryLocked s nodeId with
    | none => (.errNodev, s)
    | some slot => (.ok, { s with
        entries := s.entries.modify slot fun e => { e with capsAllowed := capsAllowed } })

/-- What `nodebit_evaluate` decides about a request, given the entry of the node. -/
def Entry.decide (e : Entry) (capsRequested : BitVec 64) (health : Health.Summary) :
    Action × BitVec 64 × Bool :=
  if capsRequested &&& e.capsAllowed ≠ capsRequested then (.deny, 0, false)
  else if e.healthGate && capsRequested &&& NODEBIT_CAP_RISKY_MASK != 0 &&
      (health.level != .stable || !health.riskyIoAllowed) then (.deny, 0, true)
  else (.permit, capsRequested, false)

/-- `nodebit_evaluate`: the status, and what it leaves in `*decision_out` if it writes there. -/
def evaluate (nodeId : Nat) (capsRequested : BitVec 64) (hasOut : Bool) (health : Health.Summary)
    (startNs endNs : Nat) (s : State) : (AiosStatus × Option Decision) × State :=
  if !s.ready || !hasOut then ((.errInval, none), s)
  else
    match findEntryLocked s nodeId with
    | none => ((.errNodev, some ⟨.deny, nodeId, capsRequested, 0, false, startNs⟩), s)
    | some slot =>
      let entry := s.entries.getD slot Entry.zero
      let (action, granted, blocked) := entry.decide capsRequested health
      ((.ok, some ⟨action, nodeId, capsRequested, granted, blocked, startNs⟩),
        recordDecision slot action blocked startNs endNs s)

def observeWork (nodeId durationNs : Nat) (s : State) : AiosStatus × State :=
  if !s.ready then (.errInval, s)
  else
    match findEntryLocked s nodeId with
    | none => (.errNodev, s)
    | some slot => (.ok, { s with stats := s.stats.modify slot fun st => { st with
        workTotalNs := u64 (st.workTotalNs + durationNs)
        workCount := u32 (st.workCount + 1) } })

/-- Statistics of a node nothing has been recorded for. -/
def NodeStats.fresh (nodeId : Nat) : NodeStats := ⟨nodeId, 0, 0, 0, 0, 0, 0, 0, 0, 0, 0⟩

/-- `nodebit_stats_lookup`; returns what it writes to `*out`. -/
def statsLookup (nodeId : Nat) (hasOut : Bool) (s : State) : AiosStatus × Option NodeStats :=
  if !s.ready || !hasOut then (.errInval, none)
  else
    match findEntryLocked s nodeId with
    | none => (.errNodev, none)
    | some slot => (.ok, some (s.stats.getD slot (NodeStats.fresh 0)))

structure StatsSummary where
  activeNodes : Nat
  evaluations : Nat
  permits : Nat
  denies : Nat
  healthBlocks : Nat
  evalMaxNs : Nat
  workTotalNs : Nat
  workCount : Nat
  deriving DecidableEq, Repr

/-- The body of the loop of `nodebit_stats_summary`. -/
def StatsSummary.add (out : StatsSummary) (x : Entry × NodeStats) : StatsSummary :=
  if !x.1.active then out
  else
    { activeNodes := u32 (out.activeNodes + 1)
      evaluations := u32 (out.evaluations + x.2.evaluations)
      permits := u32 (out.permits + x.2.permits)
      denies := u32 (out.denies + x.2.denies)
      healthBlocks := u32 (out.healthBlocks + x.2.healthBlocks)
      workTotalNs := u64 (out.workTotalNs + x.2.workTotalNs)
      workCount := u32 (out.workCount + x.2.workCount)
      evalMaxNs := if out.evalMaxNs < x.2.evalMaxNs then x.2.evalMaxNs else out.evalMaxNs }

def statsSummary (s : State) : StatsSummary :=
  (s.entries.zip s.stats).foldl StatsSummary.add ⟨0, 0, 0, 0, 0, 0, 0, 0⟩

end AiosKernel.Nodebit
