/-
# `AiosKernel.Heap.Model` — the kernel heap of `kernel/mm/heap.c`

First-fit allocation from one static 2 MiB pool.  Block headers live inside the
pool, so a pointer is an address and the memory is a map from header addresses
to headers.  `NULL` is `none`.

The heap lock is held from the first read to the last write of every call, so a
call is one step; only the acquisition counter of the lock is kept.
-/
import AiosKernel.Types
import AiosKernel.Lib.Word

namespace AiosKernel.Heap

open Word

def HEAP_POOL_SIZE : Nat := 2 * 1024 * 1024
def HEAP_MAGIC_FREE : Nat := 0xCAFEF00D
def HEAP_MAGIC_USED : Nat := 0xDEADBEEF
def HEAP_ALIGN : Nat := 16

/-- `sizeof(heap_block_t)`, asserted at compile time. -/
def HEADER_SIZE : Nat := 32

structure HeapBlock where
  size : Nat
  magic : Nat
  free : Nat
  next : Option Nat
  prev : Option Nat
  deriving DecidableEq, Repr, Inhabited

structure HeapStats where
  total : Nat
  used : Nat
  free : Nat
  allocs : Nat
  frees : Nat
  blocks : Nat
  deriving DecidableEq, Repr, Inhabited

/-- Where the linker placed `heap_pool`: a 16-byte aligned object inside the address space,
not at the null address. -/
structure HeapPool where
  base : Nat
  aligned : base % 16 = 0
  pos : 0 < base
  inRange : base + HEAP_POOL_SIZE ≤ 2 ^ 64

structure HeapState where
  mem : Nat → HeapBlock
  head : Option Nat
  ready : Bool
  stats : HeapStats
  lockAcquires : Nat

namespace HeapState

def setBlock (s : HeapState) (a : Nat) (f : HeapBlock → HeapBlock) : HeapState :=
  { s with mem := Function.update s.mem a (f (s.mem a)) }

def setBlock? (s : HeapState) (a : Option Nat) (f : HeapBlock → HeapBlock) : HeapState :=
  match a with
  | some a => s.setBlock a f
  | none => s

def setStats (s : HeapState) (f : HeapStats → HeapStats) : HeapState :=
  { s with stats := f s.stats }

section

variable (s : HeapState) (a y : Nat) (f : HeapBlock → HeapBlock) (g : HeapStats → HeapStats)

theorem setBlock_mem : (s.setBlock a f).mem y = if y = a then f (s.mem a) else s.mem y := by
  simp only [setBlock, Function.update_apply]

@[simp] theorem setBlock_head : (s.setBlock a f).head = s.head := rfl
@[simp] theorem setBlock_ready : (s.setBlock a f).ready = s.ready := rfl
@[simp] theorem setBlock_stats : (s.setBlock a f).stats = s.stats := rfl
@[simp] theorem setStats_mem : (s.setStats g).mem = s.mem := rfl
@[simp] theorem setStats_head : (s.setStats g).head = s.head := rfl
@[simp] theorem setStats_ready : (s.setStats g).ready = s.ready := rfl
@[simp] theorem setStats_stats : (s.setStats g).stats = g s.stats := rfl

theorem setBlock?_mem (a : Option Nat) :
    (s.setBlock? a f).mem y = if a = some y then f (s.mem y) else s.mem y := by
  cases a with
  | none => simp [setBlock?]
  | some a =>
    simp only [setBlock?, setBlock_mem, Option.some.injEq, @eq_comm _ a]
    split <;> simp_all

@[simp] theorem setBlock?_head (a : Option Nat) : (s.setBlock? a f).head = s.head := by
  cases a <;> rfl
@[simp] theorem setBlock?_ready (a : Option Nat) : (s.setBlock? a f).ready = s.ready := by
  cases a <;> rfl
@[simp] theorem setBlock?_stats (a : Option Nat) : (s.setBlock? a f).stats = s.stats := by
  cases a <;> rfl

end

end HeapState

/-- `round_up`: the addition wraps, so the last 15 sizes round to zero. -/
def roundUp (n : Nat) : Nat := u64 (n + HEAP_ALIGN - 1) &&& (2 ^ 64 - HEAP_ALIGN)

/-- One half of `coalesce`: the block `b` takes over its successor `nx`. -/
def absorb (b nx : Nat) (s : HeapState) : HeapState :=
  let s := s.setBlock b fun h => { h with size := u64 (h.size + (HEADER_SIZE + (s.mem nx).size)) }
  let s := s.setBlock b fun h => { h with next := (s.mem nx).next }
  let s := s.setBlock? (s.mem nx).next fun h => { h with prev := some b }
  let s := s.setBlock nx fun h => { h with magic := 0 }
  s.setStats fun t => { t with blocks := sub32 t.blocks 1 }

/-- The first `if` of `coalesce`. -/
def mergeNext (b : Nat) (s : HeapState) : HeapState :=
  match (s.mem b).next with
  | none => s
  | some nx => if (s.mem nx).free = 0 then s else absorb b nx s

/-- The second `if` of `coalesce`. -/
def mergePrev (b : Nat) (s : HeapState) : HeapState :=
  match (s.mem b).prev with
  | none => s
  | some pv => if (s.mem pv).free = 0 then s else absorb pv b s

def coalesce (b : Nat) (s : HeapState) : HeapState := mergePrev b (mergeNext b s)

def heapInit (pool : HeapPool) (s : HeapState) : HeapState :=
  let s := { s with head := some pool.base }
  let s := s.setBlock pool.base fun _ =>
    { size := HEAP_POOL_SIZE - HEADER_SIZE, magic := HEAP_MAGIC_FREE, free := 1,
      next := none, prev := none }
  let size := (s.mem pool.base).size
  { s with
    stats := { total := size, used := 0, free := size, allocs := 0, frees := 0, blocks := 1 },
    ready := true }

def firstFit (mem : Nat → HeapBlock) (aligned : Nat) : Nat → Option Nat → Outcome (Option Nat)
  | _, none => .done none
  | 0, some _ => .diverge
  | fuel + 1, some cur =>
    if (mem cur).magic ≠ HEAP_MAGIC_FREE ∧ (mem cur).magic ≠ HEAP_MAGIC_USED then
      .panic "kmalloc: heap corruption detected"
    else if (mem cur).free ≠ 0 ∧ aligned ≤ (mem cur).size then .done (some cur)
    else firstFit mem aligned fuel (mem cur).next

/-- Cut the tail off the chosen block if it can hold another allocation. -/
def splitBlock (cur aligned : Nat) (s : HeapState) : HeapState :=
  let remainder := sub64 (s.mem cur).size aligned
  if HEADER_SIZE + HEAP_ALIGN < remainder then
    let split := cur + HEADER_SIZE + aligned
    let s := s.setBlock split fun _ =>
      { size := sub64 remainder HEADER_SIZE, magic := HEAP_MAGIC_FREE, free := 1,
        next := (s.mem cur).next, prev := some cur }
    let s := s.setBlock? (s.mem cur).next fun h => { h with prev := some split }
    let s := s.setBlock cur fun h => { h with next := some split, size := aligned }
    s.setStats fun t => { t with blocks := u32 (t.blocks + 1) }
  else s

def takeBlock (cur : Nat) (s : HeapState) : HeapState :=
  let s := s.setBlock cur fun h => { h with magic := HEAP_MAGIC_USED, free := 0 }
  let size := (s.mem cur).size
  s.setStats fun t =>
    { t with used := u64 (t.used + size), free := sub64 t.free size, allocs := u32 (t.allocs + 1) }

def kmalloc (fuel size : Nat) (s : HeapState) : Outcome (Option Nat × HeapState) :=
  if s.ready = false ∨ size = 0 then .done (none, s)
  else do
    let aligned := roundUp size
    let s := { s with lockAcquires := u64 (s.lockAcquires + 1) }
    match ← firstFit s.mem aligned fuel s.head with
    | none => .done (none, s)
    | some cur => .done (some (cur + HEADER_SIZE), takeBlock cur (splitBlock cur aligned s))

/-- The part of `kfree` between its two sanity checks and the call of `coalesce`. -/
def markFree (block : Nat) (s : HeapState) : HeapState :=
  let size := (s.mem block).size
  let s := s.setStats fun t =>
    { t with used := sub64 t.used size, free := u64 (t.free + size), frees := u32 (t.frees + 1) }
  s.setBlock block fun h => { h with magic := HEAP_MAGIC_FREE, free := 1 }

def kfree (ptr : Option Nat) (s : HeapState) : Outcome HeapState :=
  match ptr with
  | none => .done s
  | some ptr =>
    if s.ready = false then .done s
    else
      let block := ptr - HEADER_SIZE
      let s := { s with lockAcquires := u64 (s.lockAcquires + 1) }
      if (s.mem block).magic ≠ HEAP_MAGIC_USED then
        .panic "kfree: double-free or heap corruption"
      else if (s.mem block).free ≠ 0 then .panic "kfree: block already marked free"
      else .done (coalesce block (markFree block s))

def heapGetStats (s : HeapState) : HeapStats := s.stats

end AiosKernel.Heap
