/-
# `AiosKernel.Syscall.InferRing` — the registered inference rings

`sys_infer_ring_setup` and `sys_infer_ring_notify` of
`kernel/runtime/ai_syscall.c`, and `ai_infer_ring_runtime`, which sums the table
up.  Rings are never taken back: a setup appends to the table until it is full.
-/
import AiosKernel.Types
import AiosKernel.Lib.Word

namespace AiosKernel.Syscall

open Word

def AI_RING_ABI_VERSION : Nat := 1
def AI_RING_MIN_ENTRIES : Nat := 64
def AI_RING_MAX_ENTRIES : Nat := 4096
def AI_INFER_RING_CAPACITY : Nat := 16
def AI_RING_REG_F_EVENT_NOTIFY : BitVec 16 := 1 <<< 1
def AI_RING_REG_F_SHARED_KV : BitVec 16 := 1 <<< 2

/-- `ai_ring_registration_t`, without what the kernel only stores. -/
structure RingRegistration where
  abiVersion : Nat
  flags : BitVec 16
  submitEntries : Nat
  completionEntries : Nat
  deriving DecidableEq, Repr

/-- `infer_ring_state_t`. -/
structure InferRing where
  registered : Bool
  ringId : Nat
  notifyCount : Nat
  lastSubmitTail : Nat
  lastNotifyNs : Nat
  registration : RingRegistration
  deriving DecidableEq, Repr

def aiRingValidEntries (entryCount : Nat) : Bool :=
  if entryCount < AI_RING_MIN_ENTRIES || AI_RING_MAX_ENTRIES < entryCount then false
  else entryCount &&& (entryCount - 1) == 0

def findInferRingLocked (rings : List InferRing) (ringId : Nat) : Option Nat :=
  rings.findIdx? fun ring => ring.registered && ring.ringId == ringId

/-- What the accesses to user memory return, in the order `sys_infer_ring_setup` makes them. -/
structure RingAccess where
  request : AiosStatus
  idBuffer : AiosStatus
  idCopy : AiosStatus
  deriving DecidableEq, Repr

/-- `sys_infer_ring_setup`, on the rings below `infer_ring_count`. -/
def sysInferRingSetup (u : RingAccess) (hasRingIdOut : Bool) (registration : RingRegistration)
    (rings : List InferRing) : AiosStatus × List InferRing :=
  if u.request ≠ .ok then (u.request, rings)
  else if !hasRingIdOut then (.errInval, rings)
  else if u.idBuffer ≠ .ok then (u.idBuffer, rings)
  else if registration.abiVersion ≠ AI_RING_ABI_VERSION then (.errInval, rings)
  else if !aiRingValidEntries registration.submitEntries then (.errInval, rings)
  else if !aiRingValidEntries registration.completionEntries then (.errInval, rings)
  else if AI_INFER_RING_CAPACITY ≤ rings.length then (.errNomem, rings)
  else (u.idCopy, rings ++ [⟨true, rings.length + 1, 0, 0, 0, registration⟩])

def sysInferRingNotify (request : AiosStatus) (ringId submitTail now : Nat)
    (rings : List InferRing) : AiosStatus × List InferRing :=
  if request ≠ .ok then (request, rings)
  else
    match findInferRingLocked rings ringId with
    | none => (.errInval, rings)
    | some i => (.ok, rings.modify i fun ring =>
      { ring with
        notifyCount := u32 (ring.notifyCount + 1)
        lastSubmitTail := submitTail
        lastNotifyNs := now })

/-- `ai_ring_runtime_snapshot_t`. -/
structure RingRuntime where
  registeredRings : Nat
  activeRings : Nat
  totalNotifies : Nat
  maxSubmitTailObserved : Nat
  lastRingId : Nat
  lastNotifyNs : Nat
  anyEventNotify : Bool
  anySharedKv : Bool
  deriving DecidableEq, Repr

/-- The body of the loop of `ai_infer_ring_runtime`. -/
def RingRuntime.add (r : RingRuntime) (ring : InferRing) : RingRuntime :=
  if !ring.registered then r
  else
    { registeredRings := u16 (r.registeredRings + 1)
      activeRings := if 0 < ring.notifyCount then u16 (r.activeRings + 1) else r.activeRings
      totalNotifies := u32 (r.totalNotifies + ring.notifyCount)
      maxSubmitTailObserved := max r.maxSubmitTailObserved ring.lastSubmitTail
      lastRingId := if r.lastNotifyNs ≤ ring.lastNotifyNs then u16 ring.ringId else r.lastRingId
      lastNotifyNs := max r.lastNotifyNs ring.lastNotifyNs
      anyEventNotify :=
        r.anyEventNotify || ring.registration.flags &&& AI_RING_REG_F_EVENT_NOTIFY != 0
      anySharedKv := r.anySharedKv || ring.registration.flags &&& AI_RING_REG_F_SHARED_KV != 0 }

def aiInferRingRuntime (rings : List InferRing) : RingRuntime :=
  rings.foldl RingRuntime.add ⟨0, 0, 0, 0, 0, 0, false, false⟩

/-! ## The table never outgrows its capacity -/

/-- A setup registers a ring in a table with room, and then only the copy of its id can fail; or it
fails before and leaves the table alone. -/
theorem sysInferRingSetup_cases (u : RingAccess) (hasRingIdOut : Bool)
    (registration : RingRegistration) (rings : List InferRing) :
    (u.idBuffer = .ok ∧ rings.length < AI_INFER_RING_CAPACITY ∧
      ∃ ring, sysInferRingSetup u hasRingIdOut registration rings = (u.idCopy, rings ++ [ring])) ∨
    ∃ st, st ≠ .ok ∧ sysInferRingSetup u hasRingIdOut registration rings = (st, rings) := by
  unfold sysInferRingSetup
  split
  · rename_i hrequest
    exact .inr ⟨_, hrequest, rfl⟩
  split
  · exact .inr ⟨.errInval, by decide, rfl⟩
  split
  · rename_i hbuffer
    exact .inr ⟨_, hbuffer, rfl⟩
  rename_i hbuffer
  iterate 3
    split
    · exact .inr ⟨.errInval, by decide, rfl⟩
  split
  · exact .inr ⟨.errNomem, by decide, rfl⟩
  rename_i hroom
  exact .inl ⟨not_not.mp hbuffer, Nat.not_le.mp hroom, _, rfl⟩

theorem sysInferRingSetup_length {u : RingAccess} {hasRingIdOut : Bool}
    {registration : RingRegistration} {rings : List InferRing}
    (h : rings.length ≤ AI_INFER_RING_CAPACITY) :
    (sysInferRingSetup u hasRingIdOut registration rings).2.length ≤ AI_INFER_RING_CAPACITY := by
  rcases sysInferRingSetup_cases u hasRingIdOut registration rings with
    ⟨-, hroom, ring, hcall⟩ | ⟨st, -, hcall⟩
  · rw [hcall, List.length_append]
    exact hroom
  · rw [hcall]
    exact h

theorem sysInferRingNotify_length (request : AiosStatus) (ringId submitTail now : Nat)
    (rings : List InferRing) :
    (sysInferRingNotify request ringId submitTail now rings).2.length = rings.length := by
  unfold sysInferRingNotify
  split; · rfl
  split; · rfl
  exact List.length_modify ..

theorem registeredRings_le (rings : List InferRing) :
    (aiInferRingRuntime rings).registeredRings ≤ rings.length := by
  refine Nat.le_trans (Word.foldl_le_length (m := RingRuntime.registeredRings) (fun r ring => ?_)
    rings _) (Nat.le_of_eq (Nat.zero_add _))
  unfold RingRuntime.add
  split
  · exact Nat.le_succ _
  · exact Nat.mod_le _ _

end AiosKernel.Syscall
