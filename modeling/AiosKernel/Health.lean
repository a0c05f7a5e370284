/-
# `AiosKernel.Health` — the health registry of `kernel/core/health.c`

Every subsystem is marked with a state; the summary other parts of the kernel
ask for is computed from all of them, each time it is asked for.  Nothing is kept
of it, so that a mark shows in the next summary.
-/
import AiosKernel.Types

namespace AiosKernel.Health

inductive HealthState where
  | unknown
  | ok
  | degraded
  | failed
  deriving DecidableEq, Repr

/-- `kernel_stability_t`; the source's word for the first level is a keyword here. -/
inductive Stability where
  | unsafeLevel
  | degraded
  | stable
  deriving DecidableEq, Repr

/-- `kernel_subsystem_health_t`, as far as the summary reads it. -/
structure Subsystem where
  required : Bool
  ioPath : Bool
  state : HealthState
  deriving DecidableEq, Repr

structure Summary where
  level : Stability
  okCount : Nat
  degradedCount : Nat
  failedCount : Nat
  unknownCount : Nat
  requiredFailures : Nat
  ioDegraded : Nat
  autonomyAllowed : Bool
  riskyIoAllowed : Bool
  deriving DecidableEq, Repr

/-- `required` and `io_path` of `g_health`, in the order of the subsystems, as
`kernel_health_init` leaves the table. -/
def initial : List Subsystem :=
  [⟨true, false, .unknown⟩, ⟨true, false, .unknown⟩, ⟨true, false, .unknown⟩,
   ⟨false, false, .unknown⟩, ⟨false, true, .unknown⟩, ⟨true, false, .unknown⟩,
   ⟨true, false, .unknown⟩, ⟨true, false, .unknown⟩, ⟨false, false, .unknown⟩,
   ⟨false, true, .unknown⟩, ⟨false, true, .unknown⟩, ⟨false, true, .unknown⟩,
   ⟨false, true, .unknown⟩, ⟨true, false, .unknown⟩, ⟨true, false, .unknown⟩,
   ⟨true, false, .unknown⟩, ⟨true, false, .unknown⟩, ⟨false, false, .unknown⟩,
   ⟨false, false, .unknown⟩, ⟨false, false, .unknown⟩]

def mark (id : Nat) (state : HealthState) (table : List Subsystem) : List Subsystem :=
  table.modify id fun e => { e with state := state }

/-- One round of the loop of `kernel_health_get_summary`. -/
def Summary.count (out : Summary) (e : Subsystem) : Summary :=
  match e.state with
  | .ok => { out with okCount := out.okCount + 1 }
  | .degraded => { out with
      degradedCount := out.degradedCount + 1
      ioDegraded := if e.ioPath then out.ioDegraded + 1 else out.ioDegraded }
  | .failed => { out with
      failedCount := out.failedCount + 1
      requiredFailures := if e.required then out.requiredFailures + 1 else out.requiredFailures
      ioDegraded := if e.ioPath then out.ioDegraded + 1 else out.ioDegraded }
  | .unknown => { out with unknownCount := out.unknownCount + 1 }

/-- The level and the permissions, once everything is counted. -/
def Summary.judge (out : Summary) : Summary :=
  let level : Stability :=
    if 0 < out.requiredFailures then .unsafeLevel
    else if 0 < out.failedCount || 0 < out.degradedCount then .degraded
    else out.level
  { out with
    level := level
    autonomyAllowed := level == .stable
    riskyIoAllowed := level == .stable && out.ioDegraded == 0 }

def getSummary (table : List Subsystem) : Summary :=
  (table.foldl Summary.count ⟨.stable, 0, 0, 0, 0, 0, 0, true, true⟩).judge

end AiosKernel.Health
