/-
# `AiosKernel.AddressSpace.Model` — the two bootstrap user address spaces

The calls of `kernel/mm/address_space.c` on an explicit state: the CR3 and RFLAGS
registers of the boot processor, the private page tables and backing pages of
the two user slots, and the slot that is currently lent out.  A guard belongs
to the caller, so that a call takes it and gives it back.

What the hardware makes of a write to CR3 is a parameter: the n-th write leaves
`cr3After n value` in the register, whatever the code wanted there.  `cli` and
`sti` do what they say.
-/
import AiosKernel.Types
import AiosKernel.Lib.Flag
import Mathlib.Algebra.Ring.Nat
import Mathlib.Data.List.FinRange

namespace AiosKernel.AddressSpace

open Function

/-! ## Types -/

abbrev ADDRESS_SPACE_BOOTSTRAP_USER_SLOT_COUNT : Nat := 2
def ADDRESS_SPACE_NO_SLOT : Nat := 0xFFFFFFFF
def PAGE_TABLE_ENTRIES : Nat := 512

def PAGE_SIZE : BitVec 64 := 4096
def HUGE_PAGE_SIZE : BitVec 64 := 2 * 1024 * 1024
def AIOS_BOOTSTRAP_USER_BASE : BitVec 64 := 64 * 1024 * 1024
def AIOS_BOOTSTRAP_USER_SIZE : BitVec 64 := HUGE_PAGE_SIZE

def CR3_ADDRESS_MASK : BitVec 64 := 0x000FFFFFFFFFF000
def IDENTITY_MAP_LIMIT : BitVec 64 := 0x100000000

def PAGE_PRESENT : BitVec 64 := 0x001
def PAGE_WRITABLE : BitVec 64 := 0x002
def PAGE_USER : BitVec 64 := 0x004
def PAGE_HUGE : BitVec 64 := 0x080
def USER_TABLE_FLAGS : BitVec 64 := PAGE_PRESENT ||| PAGE_WRITABLE ||| PAGE_USER
def USER_LEAF_FLAGS : BitVec 64 := USER_TABLE_FLAGS ||| PAGE_HUGE

def PAGE_NX_BIT : Nat := 63

def RFLAGS_IF_BIT : Nat := 9

/-- An index of the static slot arrays. -/
abbrev Slot : Type := Fin ADDRESS_SPACE_BOOTSTRAP_USER_SLOT_COUNT

instance : NeZero ADDRESS_SPACE_BOOTSTRAP_USER_SLOT_COUNT := ⟨by decide⟩

abbrev PageTable : Type := Fin PAGE_TABLE_ENTRIES → BitVec 64

abbrev Backing : Type := Fin AIOS_BOOTSTRAP_USER_SIZE.toNat → BitVec 8

/-- What the calls read and never write: where the linker put the static arrays, the boot
page tables, what `cpu_security_info` reports, and how CR3 takes its writes. -/
structure Platform where
  userPml4 : Slot → BitVec 64
  userPdpt : Slot → BitVec 64
  userPd0 : Slot → BitVec 64
  userBacking : Slot → BitVec 64
  p4Table : PageTable
  p3Table : PageTable
  p2Table0 : PageTable
  nxEnabled : Bool
  cr3After : Nat → BitVec 64 → BitVec 64

structure BootstrapSlot where
  slot : Nat
  cr3 : BitVec 64
  userBase : BitVec 64
  userSize : BitVec 64
  backingPhys : BitVec 64
  ready : Bool
  executable : Bool
  deriving DecidableEq, Repr

structure Guard where
  previousCr3 : BitVec 64
  previousFlags : BitVec 64
  activeSlot : Nat
  cr3Restored : Bool
  ifRestored : Bool
  irqRestorePending : Bool
  active : Bool
  deriving DecidableEq, Repr

def Guard.zero : Guard := ⟨0, 0, 0, false, false, false, false⟩

/-- The fields of `address_space_stats_t` that the calls below count. -/
structure Stats where
  switches : Nat
  lastFromCr3 : BitVec 64
  lastToCr3 : BitVec 64
  deriving DecidableEq, Repr

/-- The registers and the static variables of the file.  `cr3Writes` counts the writes to
CR3, to tell the hardware which one comes next. -/
structure State where
  cr3 : BitVec 64
  rflags : BitVec 64
  cr3Writes : Nat
  pml4 : Slot → PageTable
  pdpt : Slot → PageTable
  pd0 : Slot → PageTable
  backing : Slot → Backing
  userSpacesReady : Bool
  userSlotExecutable : Slot → Bool
  activeSlot : Nat
  stats : Stats

/-- `(read_rflags() & BIT(9)) != 0`. -/
def State.interruptsEnabled (s : State) : Bool := Flag.test s.rflags RFLAGS_IF_BIT

/-! ## CR3 and the interrupt flag -/

def writeCr3 (p : Platform) (s : State) (value : BitVec 64) : State :=
  { s with cr3 := p.cr3After s.cr3Writes value, cr3Writes := s.cr3Writes + 1 }

def switchCr3Record (p : Platform) (s : State) (nextCr3 : BitVec 64) : State :=
  let s := { s with stats := { s.stats with lastFromCr3 := s.cr3 &&& CR3_ADDRESS_MASK,
                                            lastToCr3 := nextCr3 &&& CR3_ADDRESS_MASK } }
  let s := writeCr3 p s nextCr3
  { s with stats := { s.stats with switches := s.stats.switches + 1 } }

def irqDisable (s : State) : State := { s with rflags := Flag.clear s.rflags RFLAGS_IF_BIT }

/-- `sti`. -/
def irqEnable (s : State) : State := { s with rflags := Flag.set s.rflags RFLAGS_IF_BIT }

def irqSaveDisable (s : State) : BitVec 64 × State := (s.rflags, irqDisable s)

def irqRestore (flags : BitVec 64) (s : State) : State :=
  if Flag.test flags RFLAGS_IF_BIT then irqEnable s else irqDisable s

/-! ## The private page tables -/

def identityRangeValid (base size alignment : BitVec 64) : Bool :=
  base != 0 && base &&& (alignment - 1) == 0 && decide (size ≤ IDENTITY_MAP_LIMIT) &&
    decide (base ≤ IDENTITY_MAP_LIMIT - size)

/-- `bootstrap_user_leaf_flags`, whose two error returns need a null pointer. -/
def bootstrapUserLeafFlags (p : Platform) (executable : Bool) : BitVec 64 :=
  if !executable && p.nxEnabled then Flag.set USER_LEAF_FLAGS PAGE_NX_BIT else USER_LEAF_FLAGS

/-- The index of the user window at a paging level, `(BASE >> shift) & 0x1FF`. -/
def tableIndex (shift : Nat) : Fin PAGE_TABLE_ENTRIES :=
  ⟨((AIOS_BOOTSTRAP_USER_BASE >>> shift) &&& 0x1FF).toNat, by
    rw [BitVec.toNat_and]
    exact Nat.lt_of_le_of_lt Nat.and_le_right (by decide)⟩

def pml4Index : Fin PAGE_TABLE_ENTRIES := tableIndex 39
def pdptIndex : Fin PAGE_TABLE_ENTRIES := tableIndex 30
def pdeIndex : Fin PAGE_TABLE_ENTRIES := tableIndex 21

/-- The four address checks `build_private_user_spaces` makes of a slot. -/
def slotRangesValid (p : Platform) (i : Slot) : Bool :=
  identityRangeValid (p.userPml4 i) PAGE_SIZE PAGE_SIZE &&
  identityRangeValid (p.userPdpt i) PAGE_SIZE PAGE_SIZE &&
  identityRangeValid (p.userPd0 i) PAGE_SIZE PAGE_SIZE &&
  identityRangeValid (p.userBacking i) AIOS_BOOTSTRAP_USER_SIZE HUGE_PAGE_SIZE

/-- `g_user_pd0[slot][pde_index] = backing | flags`. -/
def setLeaf (p : Platform) (s : State) (i : Slot) (flags : BitVec 64) : State :=
  let table := update (s.pd0 i) pdeIndex (p.userBacking i ||| flags)
  { s with pd0 := update s.pd0 i table }

/-- `memset(g_user_backing[slot], 0, AIOS_BOOTSTRAP_USER_SIZE)`. -/
def zeroBacking (s : State) (i : Slot) : State :=
  { s with backing := update s.backing i fun _ => 0 }

/-- `g_user_slot_executable[slot] = executable`. -/
def setExecutable (s : State) (i : Slot) (executable : Bool) : State :=
  { s with userSlotExecutable := update s.userSlotExecutable i executable }

/-- The body of the loop of `build_private_user_spaces`, past its checks. -/
def buildSlot (p : Platform) (flags : BitVec 64) (s : State) (i : Slot) : State :=
  let s := { s with
    pml4 := update s.pml4 i p.p4Table
    pdpt := update s.pdpt i p.p3Table
    pd0 := update s.pd0 i p.p2Table0 }
  let s := setLeaf p s i flags
  let directories := update (s.pdpt i) pdptIndex (p.userPd0 i ||| USER_TABLE_FLAGS)
  let s := { s with pdpt := update s.pdpt i directories }
  let top := update (s.pml4 i) pml4Index (p.userPdpt i ||| USER_TABLE_FLAGS)
  let s := { s with pml4 := update s.pml4 i top }
  setExecutable s i false

/-- The loop of `build_private_user_spaces`: a slot that fails its checks ends it, with the
slots before it already built. -/
def buildSlots (p : Platform) (flags : BitVec 64) : List Slot → State → AiosStatus × State
  | [], s => (.ok, s)
  | i :: rest, s =>
    if slotRangesValid p i then buildSlots p flags rest (buildSlot p flags s i)
    else (.errInval, s)

def buildPrivateUserSpaces (p : Platform) (s : State) : AiosStatus × State :=
  if s.userSpacesReady then (.ok, s)
  else
    match buildSlots p (bootstrapUserLeafFlags p false) (List.finRange _) s with
    | (.ok, s) =>
      if p.userBacking 0 = p.userBacking 1 then (.errIo, s)
      else (.ok, { s with userSpacesReady := true })
    | (status, s) => (status, s)

/-! ## The calls -/

/-- `address_space_bootstrap_slot_prepare`.  The descriptor `out` is the caller's, `none` for
a null pointer. -/
def slotPrepare (p : Platform) (slot : Nat) (executable : Bool) (out : Option BootstrapSlot)
    (s : State) : AiosStatus × Option BootstrapSlot × State :=
  if out.isNone then (.errInval, out, s)
  else if h : slot < ADDRESS_SPACE_BOOTSTRAP_USER_SLOT_COUNT then
    let i : Slot := ⟨slot, h⟩
    if s.activeSlot ≠ ADDRESS_SPACE_NO_SLOT then (.errBusy, out, s)
    else
      match buildPrivateUserSpaces p s with
      | (.ok, s) =>
        let s := zeroBacking s i
        let s := setLeaf p s i (bootstrapUserLeafFlags p executable)
        let s := setExecutable s i executable
        (.ok, some {
          slot := slot
          cr3 := p.userPml4 i
          userBase := AIOS_BOOTSTRAP_USER_BASE
          userSize := AIOS_BOOTSTRAP_USER_SIZE
          backingPhys := p.userBacking i
          ready := true
          executable := executable }, s)
      | (status, s) => (status, out, s)
  else (.errInval, out, s)

/-- The descriptor checks of `address_space_activate`: the slot a descriptor names, if it is
one `address_space_bootstrap_slot_prepare` filled in and its policy still stands. -/
def spaceSlot (p : Platform) (s : State) (space : BootstrapSlot) : Option Slot :=
  if h : space.slot < ADDRESS_SPACE_BOOTSTRAP_USER_SLOT_COUNT then
    let i : Slot := ⟨space.slot, h⟩
    if s.userSpacesReady = true ∧ space.ready = true ∧ space.cr3 = p.userPml4 i ∧
        space.userBase = AIOS_BOOTSTRAP_USER_BASE ∧
        space.userSize = AIOS_BOOTSTRAP_USER_SIZE ∧ space.backingPhys = p.userBacking i ∧
        space.executable = s.userSlotExecutable i then some i
    else none
  else none

def restoreInterrupts (guard : Guard) (s : State) : AiosStatus × Guard × State :=
  if guard.active || !guard.cr3Restored || !guard.irqRestorePending then
    (.errInval, guard, s)
  else
    let s := irqRestore guard.previousFlags s
    let ifRestored := !Flag.test (s.rflags ^^^ guard.previousFlags) RFLAGS_IF_BIT
    let guard := { guard with ifRestored := ifRestored }
    if ifRestored then (.ok, { guard with irqRestorePending := false }, s)
    else (.errIo, guard, irqDisable s)

/-- `address_space_activate` past its checks.  The slot is lent before CR3 is written; a write
that does not take is rolled back, and only a rollback that can be seen to have worked gives
the slot and the interrupt flag back. -/
def enterSpace (p : Platform) (space : BootstrapSlot) (s : State) :
    AiosStatus × Guard × State :=
  let (previousFlags, s) := irqSaveDisable s
  let previousCr3 := s.cr3
  let guard : Guard := {
    previousCr3 := previousCr3
    previousFlags := previousFlags
    activeSlot := space.slot
    cr3Restored := false
    ifRestored := false
    irqRestorePending := false
    active := true }
  let s := { s with activeSlot := space.slot }
  let s := switchCr3Record p s space.cr3
  if s.cr3 = space.cr3 then (.ok, guard, s)
  else
    let s := switchCr3Record p s previousCr3
    let guard := { guard with cr3Restored := s.cr3 == previousCr3 }
    if guard.cr3Restored then
      let s := { s with activeSlot := ADDRESS_SPACE_NO_SLOT }
      let guard := { guard with active := false, irqRestorePending := true }
      let (_, guard, s) := restoreInterrupts guard s
      (.errIo, guard, s)
    else (.errIo, guard, s)

def activate (p : Platform) (space : Option BootstrapSlot) (guard : Guard) (s : State) :
    AiosStatus × Guard × State :=
  match space with
  | none => (.errInval, guard, s)
  | some space =>
    if (spaceSlot p s space).isNone then (.errInval, guard, s)
    else if guard.active || guard.irqRestorePending ||
        s.activeSlot != ADDRESS_SPACE_NO_SLOT then (.errBusy, guard, s)
    else enterSpace p space s

def restoreDeferredIrq (p : Platform) (guard : Guard) (s : State) :
    AiosStatus × Guard × State :=
  if !guard.active || guard.activeSlot != s.activeSlot then (.errInval, guard, s)
  else
    let s := switchCr3Record p s guard.previousCr3
    let guard := { guard with cr3Restored := s.cr3 == guard.previousCr3 }
    if guard.cr3Restored then
      (.ok, { guard with active := false, irqRestorePending := true },
        { s with activeSlot := ADDRESS_SPACE_NO_SLOT })
    else (.errIo, guard, s)

def restore (p : Platform) (guard : Guard) (s : State) : AiosStatus × Guard × State :=
  match restoreDeferredIrq p guard s with
  | (.ok, guard, s) => restoreInterrupts guard s
  | (status, guard, s) => (status, guard, s)

/-- `address_space_bootstrap_slot_seal`, with the value it stores through `nx_enforced`. -/
def slotSeal (p : Platform) (slot : Nat) (s : State) : AiosStatus × Bool × State :=
  if h : slot < ADDRESS_SPACE_BOOTSTRAP_USER_SLOT_COUNT then
    let i : Slot := ⟨slot, h⟩
    if s.activeSlot ≠ ADDRESS_SPACE_NO_SLOT then (.errBusy, false, s)
    else
      match buildPrivateUserSpaces p s with
      | (.ok, s) =>
        let s := setLeaf p s i (bootstrapUserLeafFlags p false)
        let s := setExecutable s i false
        let s := zeroBacking s i
        let nx := Flag.test (s.pd0 i pdeIndex) PAGE_NX_BIT
        if p.nxEnabled && !nx then (.errIo, false, s)
        else (.ok, p.nxEnabled && nx, s)
      | (_, s) => (.errIo, false, s)
  else (.errInval, false, s)

end AiosKernel.AddressSpace
