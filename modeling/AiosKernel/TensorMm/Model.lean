/-
# `AiosKernel.TensorMm.Model` — the tensor memory manager of `kernel/mm/tensor_mm.c`

Eight regions, four of them backed by a pool, each with a free list of block
descriptors sorted by address.  Descriptors come from a static array and are
never given back, so a pointer to one is its index; `NULL` is `none`.

The two fixed-width traps of the source are kept: `ALIGN_UP` with a 32-bit
alignment masks with a 32-bit complement (`alignUp32`), and every sum and
difference of addresses is one of 64-bit words.

A chain that ends visits a descriptor at most once, so `MAX_BLOCKS + 1` steps
are enough for every walk that returns at all; a walk that needs more is on a
cycle and is `diverge`.  Only `model_free` gets its fuel from outside.
-/
import AiosKernel.Types
import AiosKernel.Lib.DList
import AiosKernel.Lib.Word

namespace AiosKernel.TensorMm

open Word DList Function

def MAX_BLOCKS : Nat := 4096
def MAX_TENSORS : Nat := 2048
def PAGE_SIZE : Nat := 4096
def HUGE_PAGE_SIZE : Nat := 2 * 1024 * 1024
def TENSOR_ALIGN : Nat := 64
def UINT64_MAX : Nat := 2 ^ 64 - 1
def MB (x : Nat) : Nat := x * 1024 * 1024

def AIOS_BOOTSTRAP_USER_BASE : Nat := MB 64
def AIOS_BOOTSTRAP_USER_SIZE : Nat := HUGE_PAGE_SIZE
def AIOS_BOOTSTRAP_USER_END : Nat := AIOS_BOOTSTRAP_USER_BASE + AIOS_BOOTSTRAP_USER_SIZE

def DTYPE_FP32 : Nat := 0
def DTYPE_FP16 : Nat := 1
def DTYPE_BF16 : Nat := 2
def DTYPE_INT8 : Nat := 3
def DTYPE_INT4 : Nat := 4
def DTYPE_FP64 : Nat := 5
def DTYPE_INT32 : Nat := 6
def DTYPE_INT16 : Nat := 7

/-! ## Data -/

/-- `mem_region_type_t`, the index type of `free_lists`. -/
inductive MemRegion where
  | kernel
  | tensor
  | model
  | inference
  | dma
  | gradient
  | activation
  | kvCache
  deriving DecidableEq, Repr

namespace MemRegion

/-- The regions in the order of their codes. -/
def all : List MemRegion :=
  [.kernel, .tensor, .model, .inference, .dma, .gradient, .activation, .kvCache]

/-- A region argument as callers pass it: a code outside the enumeration has no region. -/
def ofCode? (code : Nat) : Option MemRegion := all[code]?

end MemRegion

/-- `mem_lifetime_t`; callers may pass a code outside the enumeration. -/
inductive MemLifetime where
  | shortTerm
  | longTerm
  | realtime
  | random
  | other (code : Nat)
  deriving DecidableEq, Repr

structure TensorShape where
  ndim : Nat
  dims : List Nat
  strides : List Nat
  dtype : Nat
  deriving DecidableEq, Repr

structure MemBlock where
  base : Nat
  size : Nat
  type : MemRegion
  isFree : Bool
  isHuge : Bool
  align : Nat
  tensorId : Nat
  next : Option Nat
  prev : Option Nat
  deriving DecidableEq, Repr

/-- The fields written when a part is split off an allocation's block. -/
def MemBlock.asFree (base size : Nat) (region : MemRegion) (b : MemBlock) : MemBlock :=
  { b with base := base, size := size, type := region, isFree := true }

/-- `tensor_alloc_t`.  The shape is never written by the allocator: a record carries
whatever shape its slot of the table had. -/
structure TensorAlloc where
  id : Nat
  physAddr : Nat
  virtAddr : Nat
  size : Nat
  shape : TensorShape
  region : MemRegion
  lifetime : MemLifetime
  realtimeCritical : Bool
  stochastic : Bool
  pinned : Bool
  dmaCapable : Bool
  refCount : Nat
  deriving DecidableEq, Repr

structure MemStats where
  totalMemory : Nat
  usedMemory : Nat
  freeMemory : Nat
  tensorCount : Nat
  modelMemory : Nat
  inferenceMemory : Nat
  dmaMemory : Nat
  shortTermMemory : Nat
  longTermMemory : Nat
  realtimeMemory : Nat
  randomMemory : Nat
  fragmentation : Nat
  peakUsage : Nat
  allocCount : Nat
  freeCount : Nat
  deriving DecidableEq, Repr

/-- The descriptors and the free lists threaded through them. -/
structure Arena where
  blockPool : Nat → MemBlock
  blockPoolNext : Nat
  freeLists : MemRegion → Option Nat

structure MmState where
  arena : Arena
  tensorTable : Nat → TensorAlloc
  tensorCount : Nat
  nextTensorId : Nat
  globalStats : MemStats
  poolBase : MemRegion → Nat
  exclusionReady : Bool
  excludedBytes : Nat

/-- The entries of `memory_pools`: size and type, in order. -/
def memoryPools : List (Nat × MemRegion) :=
  [(MB 256, .tensor), (MB 512, .model), (MB 128, .inference), (MB 64, .dma)]

/-! ## Arithmetic -/

/-- `ALIGN_UP(x, a)` for a `uint32_t` alignment: the complement of `a - 1` is taken at 32
bits, so the upper half of the sum is lost. -/
def alignUp32 (x a : Nat) : Nat := u64 (x + (a - 1)) &&& (2 ^ 32 - a)

/-- `ALIGN_UP(x, a)` for an `int` constant, whose complement is sign-extended. -/
def alignUp64 (x a : Nat) : Nat := u64 (x + (a - 1)) &&& (2 ^ 64 - a)

def rangesOverlap (aBase aEnd bBase bEnd : Nat) : Bool := aBase < bEnd && bBase < aEnd

def allocationExcludesBootstrapUserHole (base size : Nat) : Bool :=
  if size = 0 || base > UINT64_MAX - size then false
  else !rangesOverlap base (base + size) AIOS_BOOTSTRAP_USER_BASE AIOS_BOOTSTRAP_USER_END

/-! ## Free lists -/

namespace Arena

def setBlock (a : Arena) (i : Nat) (f : MemBlock → MemBlock) : Arena :=
  { a with blockPool := update a.blockPool i (f (a.blockPool i)) }

def setBlock? (a : Arena) (i : Option Nat) (f : MemBlock → MemBlock) : Arena :=
  match i with
  | some i => a.setBlock i f
  | none => a

def setHead (a : Arena) (r : MemRegion) (h : Option Nat) : Arena :=
  { a with freeLists := update a.freeLists r h }

def next (a : Arena) (i : Nat) : Option Nat := (a.blockPool i).next

def prev (a : Arena) (i : Nat) : Option Nat := (a.blockPool i).prev

/-- `alloc_block`: `base`, `size`, `type`, `is_huge` and `align` keep their old contents. -/
def allocBlock (a : Arena) : Option (Nat × Arena) :=
  if MAX_BLOCKS ≤ a.blockPoolNext then none
  else
    let i := a.blockPoolNext
    let a := { a with blockPoolNext := i + 1 }
    some (i, a.setBlock i fun b =>
      { b with next := none, prev := none, isFree := true, tensorId := 0 })

/-- The first branch of `free_list_insert`. -/
def linkFront (a : Arena) (block : Nat) (type : MemRegion) : Arena :=
  let head := a.freeLists type
  let a := a.setBlock block fun b => { b with next := head, prev := none }
  let a := a.setBlock? head fun b => { b with prev := some block }
  a.setHead type (some block)

/-- The tail of `free_list_insert`. -/
def linkAfter (a : Arena) (block curr : Nat) : Arena :=
  let a := a.setBlock block fun b => { b with next := a.next curr, prev := some curr }
  let a := a.setBlock? (a.next curr) fun b => { b with prev := some block }
  a.setBlock curr fun b => { b with next := some block }

def freeListInsert (a : Arena) (block : Nat) (type : MemRegion) : Outcome Arena :=
  let a := a.setBlock block fun b => { b with isFree := true }
  match a.freeLists type with
  | none => .done (a.linkFront block type)
  | some head =>
    if (a.blockPool block).base < (a.blockPool head).base then .done (a.linkFront block type)
    else
      match advance a.next (fun d => (a.blockPool d).base < (a.blockPool block).base)
          (MAX_BLOCKS + 1) head with
      | none => .diverge
      | some curr => .done (a.linkAfter block curr)

/-- The first `if` of `free_list_remove`: what led to the block leads past it. -/
def bypass (a : Arena) (prev next : Option Nat) (type : MemRegion) : Arena :=
  match prev with
  | some p => a.setBlock p fun c => { c with next := next }
  | none => a.setHead type next

def freeListRemove (a : Arena) (block : Nat) (type : MemRegion) : Arena :=
  let b := a.blockPool block
  let a := a.bypass b.prev b.next type
  let a := a.setBlock? b.next fun c => { c with prev := b.prev }
  a.setBlock block fun c => { c with prev := none, next := none, isFree := false }

/-- One half of `coalesce_blocks`: `block` takes over its successor `nx`. -/
def absorb (a : Arena) (block nx : Nat) : Arena :=
  let n := a.blockPool nx
  let a := a.setBlock block fun b => { b with size := u64 (b.size + n.size), next := n.next }
  a.setBlock? n.next fun c => { c with prev := some block }

/-- The block `nx` starts where `block` ends. -/
def adjacent (a : Arena) (block nx : Nat) : Bool :=
  u64 ((a.blockPool block).base + (a.blockPool block).size) = (a.blockPool nx).base

/-- The first `if` of `coalesce_blocks`. -/
def mergeNext (a : Arena) (block : Nat) : Arena :=
  match a.next block with
  | none => a
  | some nx =>
    if (a.blockPool nx).isFree && a.adjacent block nx then a.absorb block nx else a

/-- The second `if` of `coalesce_blocks`. -/
def mergePrev (a : Arena) (block : Nat) : Arena :=
  match a.prev block with
  | none => a
  | some pv =>
    if (a.blockPool pv).isFree && a.adjacent pv block then a.absorb pv block else a

def coalesceBlocks (a : Arena) (block : Nat) : Arena := (a.mergeNext block).mergePrev block

/-- The test `find_best_fit` applies to one block. -/
def fits (b : MemBlock) (size alignment : Nat) : Bool :=
  let alignedBase := alignUp32 b.base alignment
  let waste := sub64 alignedBase b.base
  b.isFree && size ≤ b.size && b.base ≤ UINT64_MAX - (alignment - 1) &&
    (waste ≤ b.size && size ≤ b.size - waste &&
      allocationExcludesBootstrapUserHole alignedBase size)

/-- The loop of `find_best_fit`, with its two accumulators. -/
def findBestFitFrom (a : Arena) (size alignment : Nat) :
    Nat → Option Nat → Option Nat → Nat → Outcome (Option Nat)
  | _, none, best, _ => .done best
  | 0, some _, _, _ => .diverge
  | fuel + 1, some curr, best, bestSize =>
    let b := a.blockPool curr
    if fits b size alignment && b.size < bestSize then
      findBestFitFrom a size alignment fuel b.next (some curr) b.size
    else findBestFitFrom a size alignment fuel b.next best bestSize

def findBestFit (a : Arena) (type : MemRegion) (size alignment : Nat) : Outcome (Option Nat) :=
  findBestFitFrom a size alignment (MAX_BLOCKS + 1) (a.freeLists type) none UINT64_MAX

/-- The split before the aligned base: `none` when no descriptor is left for it. -/
def splitFront (a : Arena) (block alignedBase : Nat) (region : MemRegion) :
    Outcome (Option Arena) :=
  let base := (a.blockPool block).base
  let frontSize := sub64 alignedBase base
  if frontSize = 0 then .done (some a)
  else
    match a.allocBlock with
    | none => .done none
    | some (front, a) => do
      let a := a.setBlock front (MemBlock.asFree base frontSize region)
      let a := a.setBlock block fun b =>
        { b with base := alignedBase, size := sub64 b.size frontSize }
      let a ← a.freeListInsert front region
      .done (some a)

/-- The split after the allocation: without a descriptor the block just stays larger. -/
def splitBack (a : Arena) (block size : Nat) (region : MemRegion) : Outcome Arena :=
  if TENSOR_ALIGN < sub64 (a.blockPool block).size size then
    match a.allocBlock with
    | none => .done a
    | some (rest, a) =>
      let b := a.blockPool block
      let a := a.setBlock rest
        (MemBlock.asFree (u64 (b.base + size)) (sub64 b.size size) region)
      let a := a.setBlock block fun c => { c with size := size }
      a.freeListInsert rest region
  else .done a

end Arena

/-! ## Statistics -/

/-- The counter a lifetime class is accounted in, updated by `f`. -/
def MemStats.profile (st : MemStats) (lifetime : MemLifetime) (f : Nat → Nat) : MemStats :=
  match lifetime with
  | .shortTerm => { st with shortTermMemory := f st.shortTermMemory }
  | .longTerm => { st with longTermMemory := f st.longTermMemory }
  | .realtime => { st with realtimeMemory := f st.realtimeMemory }
  | .random => { st with randomMemory := f st.randomMemory }
  | .other _ => st

def statsAddAllocationProfile (t : TensorAlloc) (st : MemStats) : MemStats :=
  st.profile t.lifetime fun n => u64 (n + t.size)

def statsRemoveAllocationProfile (t : TensorAlloc) (st : MemStats) : MemStats :=
  st.profile t.lifetime fun n => sub64 n t.size

def statsAfterAlloc (t : TensorAlloc) (st : MemStats) : MemStats :=
  let st := { st with
    usedMemory := u64 (st.usedMemory + t.size)
    freeMemory := sub64 st.freeMemory t.size
    tensorCount := u64 (st.tensorCount + 1)
    allocCount := u64 (st.allocCount + 1) }
  let st := statsAddAllocationProfile t st
  { st with peakUsage := if st.peakUsage < st.usedMemory then st.usedMemory else st.peakUsage }

def statsAfterFree (t : TensorAlloc) (st : MemStats) : MemStats :=
  let st := { st with
    usedMemory := sub64 st.usedMemory t.size
    freeMemory := u64 (st.freeMemory + t.size)
    tensorCount := sub64 st.tensorCount 1
    freeCount := u64 (st.freeCount + 1) }
  statsRemoveAllocationProfile t st

/-! ## Allocation and release -/

/-- `default_lifetime_for_region`; a code outside the enumeration takes the default. -/
def defaultLifetimeForRegion : Option MemRegion → MemLifetime
  | some .model => .longTerm
  | some .inference | some .activation | some .gradient => .shortTerm
  | some .kvCache | some .dma => .realtime
  | _ => .shortTerm

/-- The arguments of `tensor_alloc_aligned_profiled` other than `out`. -/
structure AllocRequest where
  size : Nat
  alignment : Nat
  region : Nat
  lifetime : MemLifetime
  realtimeCritical : Bool
  stochastic : Bool
  deriving DecidableEq, Repr

/-- The values a `uint64_t` size and a `uint32_t` alignment can have. -/
def AllocRequest.InRange (q : AllocRequest) : Prop := q.size < 2 ^ 64 ∧ q.alignment < 2 ^ 32

/-- The record written for an allocated block, in the slot `tensor_count` of the table. -/
def newTensor (q : AllocRequest) (region : MemRegion) (s : MmState) (b : MemBlock) : TensorAlloc :=
  { s.tensorTable s.tensorCount with
    id := s.nextTensorId
    physAddr := b.base
    virtAddr := b.base
    size := b.size
    region := region
    lifetime := q.lifetime
    realtimeCritical := q.realtimeCritical
    stochastic := q.stochastic
    pinned := false
    dmaCapable := region == .dma
    refCount := 1 }

/-- The end of an allocation: take the block off its list and enter the tensor. -/
def enterTensor (q : AllocRequest) (region : MemRegion) (block : Nat) (s : MmState) : MmState :=
  let a := s.arena.freeListRemove block region
  let t := newTensor q region s (a.blockPool block)
  { s with
    arena := a.setBlock block fun b => { b with tensorId := t.id, isFree := false }
    tensorTable := update s.tensorTable s.tensorCount t
    tensorCount := s.tensorCount + 1
    nextTensorId := u32 (s.nextTensorId + 1)
    globalStats := statsAfterAlloc t s.globalStats }

/-- What an allocation returns: the status, and the record copied to `*out` on success. -/
abbrev AllocResult := AiosStatus × Option TensorAlloc

/-- The two splits of `tensor_alloc_aligned_profiled` and what follows them. -/
def carveTensor (q : AllocRequest) (region : MemRegion) (size alignedBase block : Nat)
    (s : MmState) : Outcome (AllocResult × MmState) := do
  match ← s.arena.splitFront block alignedBase region with
  | none => .done ((.errNomem, none), s)
  | some a => do
    let a ← a.splitBack block size region
    let s := enterTensor q region block { s with arena := a }
    .done ((.ok, some (s.tensorTable (s.tensorCount - 1))), s)

/-- `tensor_alloc_aligned_profiled` from the choice of the block on, with the size and the
alignment already adjusted. -/
def allocFrom (q : AllocRequest) (region : MemRegion) (size alignment block : Nat) (s : MmState) :
    Outcome (AllocResult × MmState) :=
  let base := (s.arena.blockPool block).base
  if UINT64_MAX - (alignment - 1) < base then .done ((.errOverflow, none), s)
  else
    let alignedBase := alignUp32 base alignment
    if !allocationExcludesBootstrapUserHole alignedBase size then .done ((.errIo, none), s)
    else carveTensor q region size alignedBase block s

/-- `tensor_alloc_aligned_profiled`; `hasOut` says that `out` is not null. -/
def tensorAllocAlignedProfiled (hasOut : Bool) (q : AllocRequest) (s : MmState) :
    Outcome (AllocResult × MmState) :=
  if !hasOut || q.size = 0 then .done ((.errInval, none), s)
  else
    match MemRegion.ofCode? q.region with
    | none => .done ((.errInval, none), s)
    | some region =>
      if MAX_TENSORS ≤ s.tensorCount then .done ((.errNomem, none), s)
      else
        let alignment := if q.alignment < TENSOR_ALIGN then TENSOR_ALIGN else q.alignment
        if alignment &&& (alignment - 1) ≠ 0 then .done ((.errInval, none), s)
        else if UINT64_MAX - (alignment - 1) < q.size then .done ((.errOverflow, none), s)
        else
          let size := alignUp32 q.size alignment
          if size = 0 then .done ((.errOverflow, none), s)
          else do
            match ← s.arena.findBestFit region size alignment with
            | none => .done ((.errNomem, none), s)
            | some block => allocFrom q region size alignment block s

def tensorAllocAligned (hasOut : Bool) (size alignment region : Nat) (s : MmState) :
    Outcome (AllocResult × MmState) :=
  let lifetime := defaultLifetimeForRegion (MemRegion.ofCode? region)
  tensorAllocAlignedProfiled hasOut
    { size, alignment, region, lifetime, realtimeCritical := lifetime == .realtime,
      stochastic := false } s

/-- `tensor_dtype_size`, on the codes of `tensor_dtype_t`; unknown ones have size 0. -/
def tensorDtypeSize (dtype : Nat) : Nat :=
  if dtype = DTYPE_FP64 then 8
  else if dtype = DTYPE_FP32 || dtype = DTYPE_INT32 then 4
  else if dtype = DTYPE_FP16 || dtype = DTYPE_BF16 || dtype = DTYPE_INT16 then 2
  else if dtype = DTYPE_INT8 || dtype = DTYPE_INT4 then 1
  else 0

/-- `shape->dims[i]`.  The index is not checked: behind the dimensions come the strides, and
behind these whatever the stack holds. -/
def TensorShape.dimAt (shape : TensorShape) (beyond : Nat → Nat) (i : Nat) : Nat :=
  (shape.dims ++ shape.strides).getD i (beyond i)

def tensorTotalSize (shape : TensorShape) (beyond : Nat → Nat) : Nat :=
  if shape.ndim = 0 then 0
  else
    let totalElements :=
      (List.range shape.ndim).foldl (fun total i => u64 (total * shape.dimAt beyond i)) 1
    if shape.dtype = DTYPE_INT4 then u64 (totalElements + 1) / 2
    else u64 (totalElements * tensorDtypeSize shape.dtype)

/-- `tensor_alloc_profiled`; a null shape is `none`. -/
def tensorAllocProfiled (beyond : Nat → Nat) (shape : Option TensorShape) (region : Nat)
    (lifetime : MemLifetime) (realtimeCritical stochastic hasOut : Bool) (s : MmState) :
    Outcome (AllocResult × MmState) :=
  match shape with
  | none => .done ((.errInval, none), s)
  | some shape =>
    if !hasOut then .done ((.errInval, none), s)
    else
      let size := tensorTotalSize shape beyond
      if size = 0 then .done ((.errInval, none), s)
      else
        tensorAllocAlignedProfiled hasOut
          { size := alignUp64 size TENSOR_ALIGN, alignment := TENSOR_ALIGN, region, lifetime,
            realtimeCritical, stochastic } s

def tensorAlloc (beyond : Nat → Nat) (shape : Option TensorShape) (region : Nat) (hasOut : Bool)
    (s : MmState) : Outcome (AllocResult × MmState) :=
  let lifetime := defaultLifetimeForRegion (MemRegion.ofCode? region)
  tensorAllocProfiled beyond shape region lifetime (lifetime == .realtime) false hasOut s

/-- `model_alloc` with an output; the model id is not used. -/
def modelAlloc (size : Nat) (s : MmState) : Outcome (AllocResult × MmState) :=
  tensorAllocAlignedProfiled true
    { size := alignUp64 size HUGE_PAGE_SIZE, alignment := HUGE_PAGE_SIZE, region := 2,
      lifetime := .longTerm, realtimeCritical := false, stochastic := false } s

/-- `find_tensor`: the index of the first record with the id. -/
def findTensor (s : MmState) (id : Nat) : Option Nat :=
  (List.range s.tensorCount).find? fun i => (s.tensorTable i).id == id

def MmState.setTensor (s : MmState) (i : Nat) (f : TensorAlloc → TensorAlloc) : MmState :=
  { s with tensorTable := update s.tensorTable i (f (s.tensorTable i)) }

/-- Remove the record `i` by moving the last one into its place. -/
def MmState.dropTensor (s : MmState) (i : Nat) : MmState :=
  let s := if i < s.tensorCount - 1 then
    s.setTensor i fun _ => s.tensorTable (s.tensorCount - 1) else s
  { s with tensorCount := s.tensorCount - 1 }

/-- The descriptor `tensor_free` makes of a tensor. -/
def TensorAlloc.toBlock (t : TensorAlloc) (b : MemBlock) : MemBlock :=
  { b with base := t.physAddr, size := t.size, type := t.region, isFree := true, tensorId := 0 }

def tensorFree (id : Nat) (s : MmState) : Outcome (AiosStatus × MmState) :=
  match findTensor s id with
  | none => .done (.errInval, s)
  | some i =>
    let t := s.tensorTable i
    if 1 < t.refCount then
      .done (.ok, s.setTensor i fun t => { t with refCount := t.refCount - 1 })
    else
      match s.arena.allocBlock with
      | none => .done (.errNomem, s)
      | some (block, a) => do
        let a := a.setBlock block t.toBlock
        let a ← a.freeListInsert block t.region
        let a := a.coalesceBlocks block
        let s := { s with arena := a, globalStats := statsAfterFree t s.globalStats }
        .done (.ok, s.dropTensor i)

def tensorRef (id : Nat) (s : MmState) : AiosStatus × MmState :=
  match findTensor s id with
  | none => (.errInval, s)
  | some i => (.ok, s.setTensor i fun t => { t with refCount := u32 (t.refCount + 1) })

/-- `tensor_pin` and `tensor_unpin`, which write one flag. -/
def setPinned (pinned : Bool) (id : Nat) (s : MmState) : AiosStatus × MmState :=
  match findTensor s id with
  | none => (.errInval, s)
  | some i => (.ok, s.setTensor i fun t => { t with pinned := pinned })

def tensorPin (id : Nat) (s : MmState) : AiosStatus × MmState := setPinned true id s

def tensorUnpin (id : Nat) (s : MmState) : AiosStatus × MmState := setPinned false id s

def tensorUnref (id : Nat) (s : MmState) : Outcome (AiosStatus × MmState) :=
  match findTensor s id with
  | none => .done (.errInval, s)
  | some i =>
    if (s.tensorTable i).refCount = 0 then .done (.errInval, s)
    else
      let s := s.setTensor i fun t => { t with refCount := t.refCount - 1 }
      if (s.tensorTable i).refCount = 0 then tensorFree id s else .done (.ok, s)

/-- `tensor_info` with an output: a copy of the record. -/
def tensorInfo (id : Nat) (s : MmState) : Option TensorAlloc :=
  (findTensor s id).map s.tensorTable

/-- The loop of `model_free`.  After a release `i--` and `i++` cancel (also through the
32-bit wrap at zero), so the same index is looked at again. -/
def modelFreeFrom : Nat → Nat → MmState → Outcome (AiosStatus × MmState)
  | 0, _, _ => .diverge
  | fuel + 1, i, s =>
    if i < s.tensorCount then
      if (s.tensorTable i).region = .model then do
        let (_, s) ← tensorFree (s.tensorTable i).id s
        modelFreeFrom fuel i s
      else modelFreeFrom fuel (i + 1) s
    else .done (.ok, s)

/-- `model_free`; the model id is not used. -/
def modelFree (fuel : Nat) (s : MmState) : Outcome (AiosStatus × MmState) :=
  modelFreeFrom fuel 0 s

end AiosKernel.TensorMm
