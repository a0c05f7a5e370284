/-
# `AiosKernel.UserMode` — publishing a ring-0 entry stack in the boot TSS

The two calls of `kernel/core/user_mode.c` that move `rsp0` of the task state
segment.  What a store to `rsp0` leaves there is a parameter, as it is for CR3:
the code reads every store back.
-/
import AiosKernel.AddressSpace.Model

namespace AiosKernel.UserMode

open AddressSpace (AIOS_BOOTSTRAP_USER_BASE AIOS_BOOTSTRAP_USER_SIZE RFLAGS_IF_BIT)

def AIOS_USER_KERNEL_STACK_SIZE : BitVec 64 := 16 * 1024
def AIOS_RING3_ENTRY_FRAME_SIZE : BitVec 64 := 5 * 8
def AIOS_USER_DS_RPL3 : BitVec 64 := 0x18 ||| 0x3
def AIOS_USER_CS_RPL3 : BitVec 64 := 0x20 ||| 0x3
def AIOS_BOOTSTRAP_USER_END : BitVec 64 := AIOS_BOOTSTRAP_USER_BASE + AIOS_BOOTSTRAP_USER_SIZE

structure Rsp0Guard where
  previousRsp0 : BitVec 64
  publishedRsp0 : BitVec 64
  active : Bool
  published : Bool
  restored : Bool
  deriving DecidableEq, Repr

def Rsp0Guard.zero : Rsp0Guard := ⟨0, 0, false, false, false⟩

/-- `rsp0` of the boot TSS, with the number of stores made to it, and what the file keeps:
`ready` and `rsp0` of `g_user_mode`, and `g_rsp0_guard_active`. -/
structure State where
  tssRsp0 : BitVec 64
  rsp0Writes : Nat
  ready : Bool
  rsp0 : BitVec 64
  rsp0GuardActive : Bool
  deriving DecidableEq, Repr

def canonicalAddress (address : BitVec 64) : Bool :=
  let upper := address >>> 48
  if Flag.test address 47 then upper == 0xFFFF else upper == 0

def rangeOverlapsBootstrapUser (base last : BitVec 64) : Bool :=
  decide (base < AIOS_BOOTSTRAP_USER_END) && decide (AIOS_BOOTSTRAP_USER_BASE < last)

def writeRsp0 (rsp0After : Nat → BitVec 64 → BitVec 64) (s : State) (value : BitVec 64) : State :=
  { s with tssRsp0 := rsp0After s.rsp0Writes value, rsp0Writes := s.rsp0Writes + 1 }

/-- `user_mode_rsp0_publish`, under the given RFLAGS. -/
def rsp0Publish (rsp0After : Nat → BitVec 64 → BitVec 64) (rflags stackBase stackSize : BitVec 64)
    (guard : Rsp0Guard) (s : State) : AiosStatus × Rsp0Guard × State :=
  if guard.active || s.rsp0GuardActive || !s.ready || Flag.test rflags RFLAGS_IF_BIT ||
      stackSize != AIOS_USER_KERNEL_STACK_SIZE || stackBase == 0 ||
      decide (stackBase > BitVec.allOnes 64 - stackSize) then (.errInval, guard, s)
  else
    let stackTop := stackBase + stackSize
    if s.tssRsp0 == 0 || s.tssRsp0 &&& 0xF != 0 || !canonicalAddress (s.tssRsp0 - 1) ||
        stackTop &&& 0xF != 0 || !canonicalAddress stackBase ||
        !canonicalAddress (stackTop - 1) || rangeOverlapsBootstrapUser stackBase stackTop then
      (.errInval, guard, s)
    else
      let guard : Rsp0Guard := ⟨s.tssRsp0, stackTop, true, false, false⟩
      let s := { s with rsp0GuardActive := true }
      let s := writeRsp0 rsp0After s stackTop
      let guard := { guard with published := s.tssRsp0 == stackTop }
      if guard.published then (.ok, guard, { s with rsp0 := stackTop })
      else (.errIo, guard, s)

/-- `user_mode_rsp0_restore`, under the given RFLAGS. -/
def rsp0Restore (rsp0After : Nat → BitVec 64 → BitVec 64) (rflags : BitVec 64)
    (guard : Rsp0Guard) (s : State) : AiosStatus × Rsp0Guard × State :=
  if !guard.active || !guard.published || !s.rsp0GuardActive ||
      Flag.test rflags RFLAGS_IF_BIT then (.errInval, guard, s)
  else if s.tssRsp0 != guard.publishedRsp0 then (.errIo, guard, s)
  else
    let s := writeRsp0 rsp0After s guard.previousRsp0
    let guard := { guard with restored := s.tssRsp0 == guard.previousRsp0 }
    if guard.restored then
      (.ok, { guard with active := false },
        { s with rsp0 := guard.previousRsp0, rsp0GuardActive := false })
    else (.errIo, guard, s)

end AiosKernel.UserMode
