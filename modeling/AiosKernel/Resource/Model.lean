/-
# `AiosKernel.Resource.Model` — the resource ledger of `kernel/runtime/ai_resource.c`

The ledger samples five subsystems and writes one entry for each into a snapshot.
`ai_resource_read` does not validate what it wrote: `ai_resource_snapshot_valid`
is for the reader.  `valid_build_iff` says what the validator asks of the five
sources.
-/
import AiosKernel.Heap.Model
import AiosKernel.MemoryFabric.Windows
import AiosKernel.Syscall.InferRing
import AiosKernel.Sched.Snapshot

namespace AiosKernel.Resource

open Heap (HeapState HeapStats heapGetStats)
open TensorMm (MemStats)
open MemoryFabric (MEMORY_FABRIC_MAX_WINDOWS Window)
open Syscall (InferRing RingRuntime AI_INFER_RING_CAPACITY aiInferRingRuntime)
open Sched (SchedState QueueSnapshot MAX_AI_TASKS aiSchedQueueSnapshot)
open Word

def AI_RESOURCE_SCHEMA_VERSION : Nat := 1
def AI_RESOURCE_LEDGER_CAPACITY : Nat := 8
def AI_RESOURCE_OWNER_NONE : Nat := 0
def AI_RESOURCE_SOURCE_ALL_CURRENT : BitVec 32 := 0x1F

def AI_RESOURCE_ENTRY_LIMIT_VALID : BitVec 32 := 0x001
def AI_RESOURCE_ENTRY_USED_VALID : BitVec 32 := 0x002
def AI_RESOURCE_ENTRY_HIGH_WATER_VALID : BitVec 32 := 0x004
def AI_RESOURCE_ENTRY_DENIED_VALID : BitVec 32 := 0x008
def AI_RESOURCE_ENTRY_OWNER_UNATTRIBUTED : BitVec 32 := 0x010
def AI_RESOURCE_ENTRY_NODE_ID_VALID : BitVec 32 := 0x020
def AI_RESOURCE_ENTRY_TASK_ID_VALID : BitVec 32 := 0x040
def AI_RESOURCE_ENTRY_MODEL_ID_VALID : BitVec 32 := 0x080
def AI_RESOURCE_ENTRY_RING_ID_VALID : BitVec 32 := 0x100
def AI_RESOURCE_ENTRY_OWNER_VALID_MASK : BitVec 32 := 0x1E0
def AI_RESOURCE_ENTRY_ALL_FLAGS : BitVec 32 := 0x1FF

def AI_RESOURCE_KIND_KERNEL_HEAP : Nat := 0
def AI_RESOURCE_KIND_TENSOR_POOL : Nat := 1
def AI_RESOURCE_KIND_MEMORY_FABRIC_WINDOWS : Nat := 2
def AI_RESOURCE_KIND_INFERENCE_RING_REGISTRATIONS : Nat := 3
def AI_RESOURCE_KIND_SCHEDULER_RUNNABLE : Nat := 4
def AI_RESOURCE_KIND_COUNT : Nat := 5

def AI_RESOURCE_UNIT_BYTES : Nat := 0
def AI_RESOURCE_UNIT_ITEMS : Nat := 1
def AI_RESOURCE_UNIT_COUNT : Nat := 2

structure Entry where
  kind : Nat
  unit : Nat
  validFlags : BitVec 32
  reserved0 : Nat
  nodeId : Nat
  taskId : Nat
  modelId : Nat
  ringId : Nat
  limit : Nat
  used : Nat
  highWater : Nat
  denied : Nat
  lastObservedNs : Nat
  deriving DecidableEq

def Entry.zero : Entry := ⟨0, 0, 0, 0, 0, 0, 0, 0, 0, 0, 0, 0, 0⟩

structure Snapshot where
  schemaVersion : Nat
  structSize : Nat
  observationOnly : Nat
  kindCount : Nat
  unitCount : Nat
  entryCount : Nat
  entryCapacity : Nat
  sourceFlags : BitVec 32
  sampledAtNs : Nat
  sampleSequence : Nat
  entries : Vector Entry AI_RESOURCE_LEDGER_CAPACITY

/-- `sizeof(ai_resource_snapshot_t)`: words of four and of eight bytes, with no padding. -/
def SNAPSHOT_SIZE : Nat := 8 * 4 + 2 * 8 + AI_RESOURCE_LEDGER_CAPACITY * (8 * 4 + 5 * 8)

/-- `memory_fabric_pressure_snapshot_t`, as far as the ledger reads it. -/
structure PressureSnapshot where
  activeWindows : Nat

/-- `memory_fabric_pressure_read`, as far as the ledger reads what it returns. -/
def memoryFabricPressureRead (s : MemoryFabric.State) : PressureSnapshot :=
  ⟨s.windows.foldl (fun n w => if w.active then u32 (n + 1) else n) 0⟩

structure Sources where
  heap : HeapStats
  tensor : MemStats
  fabric : PressureSnapshot
  rings : RingRuntime
  sched : QueueSnapshot

/-! ## Building a snapshot -/

def resourceEntrySet (kind unit : Nat) (validFlags : BitVec 32)
    (limit used highWater sampledAtNs : Nat) : Entry where
  kind := kind
  unit := unit
  validFlags := validFlags ||| AI_RESOURCE_ENTRY_OWNER_UNATTRIBUTED
  reserved0 := 0
  nodeId := AI_RESOURCE_OWNER_NONE
  taskId := AI_RESOURCE_OWNER_NONE
  modelId := AI_RESOURCE_OWNER_NONE
  ringId := AI_RESOURCE_OWNER_NONE
  limit := limit
  used := used
  highWater := highWater
  denied := 0
  lastObservedNs := sampledAtNs

def limitUsedFlags : BitVec 32 := AI_RESOURCE_ENTRY_LIMIT_VALID ||| AI_RESOURCE_ENTRY_USED_VALID

def resourceSnapshotBuild (sources : Sources) (sampledAtNs sampleSequence : Nat) : Snapshot where
  schemaVersion := AI_RESOURCE_SCHEMA_VERSION
  structSize := SNAPSHOT_SIZE
  observationOnly := 1
  kindCount := AI_RESOURCE_KIND_COUNT
  unitCount := AI_RESOURCE_UNIT_COUNT
  entryCount := AI_RESOURCE_KIND_COUNT
  entryCapacity := AI_RESOURCE_LEDGER_CAPACITY
  sourceFlags := AI_RESOURCE_SOURCE_ALL_CURRENT
  sampledAtNs := sampledAtNs
  sampleSequence := sampleSequence
  entries :=
    ⟨#[resourceEntrySet AI_RESOURCE_KIND_KERNEL_HEAP AI_RESOURCE_UNIT_BYTES limitUsedFlags
        sources.heap.total sources.heap.used 0 sampledAtNs,
      resourceEntrySet AI_RESOURCE_KIND_TENSOR_POOL AI_RESOURCE_UNIT_BYTES
        (limitUsedFlags ||| AI_RESOURCE_ENTRY_HIGH_WATER_VALID) sources.tensor.totalMemory
        sources.tensor.usedMemory sources.tensor.peakUsage sampledAtNs,
      resourceEntrySet AI_RESOURCE_KIND_MEMORY_FABRIC_WINDOWS AI_RESOURCE_UNIT_ITEMS
        limitUsedFlags MEMORY_FABRIC_MAX_WINDOWS sources.fabric.activeWindows 0 sampledAtNs,
      resourceEntrySet AI_RESOURCE_KIND_INFERENCE_RING_REGISTRATIONS AI_RESOURCE_UNIT_ITEMS
        limitUsedFlags AI_INFER_RING_CAPACITY sources.rings.registeredRings 0 sampledAtNs,
      resourceEntrySet AI_RESOURCE_KIND_SCHEDULER_RUNNABLE AI_RESOURCE_UNIT_ITEMS
        limitUsedFlags MAX_AI_TASKS sources.sched.runnableTasks 0 sampledAtNs,
      Entry.zero, Entry.zero, Entry.zero], rfl⟩

/-! ## Validating one -/

def aiResourceKindValid (kind : Nat) : Bool := kind < AI_RESOURCE_KIND_COUNT

def aiResourceUnitValid (unit : Nat) : Bool := unit < AI_RESOURCE_UNIT_COUNT

def Entry.has (entry : Entry) (flags : BitVec 32) : Bool := entry.validFlags &&& flags != 0

def resourceEntryOwnerContractValid (entry : Entry) : Bool :=
  if entry.has (~~~AI_RESOURCE_ENTRY_ALL_FLAGS) ||
      entry.has AI_RESOURCE_ENTRY_OWNER_UNATTRIBUTED &&
        entry.has AI_RESOURCE_ENTRY_OWNER_VALID_MASK then false
  else if !entry.has AI_RESOURCE_ENTRY_NODE_ID_VALID && entry.nodeId != AI_RESOURCE_OWNER_NONE then
    false
  else if !entry.has AI_RESOURCE_ENTRY_TASK_ID_VALID && entry.taskId != AI_RESOURCE_OWNER_NONE then
    false
  else if !entry.has AI_RESOURCE_ENTRY_MODEL_ID_VALID && entry.modelId != AI_RESOURCE_OWNER_NONE then
    false
  else if !entry.has AI_RESOURCE_ENTRY_RING_ID_VALID && entry.ringId != AI_RESOURCE_OWNER_NONE then
    false
  else true

/-- The counters of `ai_resource_snapshot_valid`. -/
structure KindCounts where
  limitKinds : Nat
  usedKinds : Nat
  highWaterKinds : Nat
  deniedKinds : Nat
  deriving DecidableEq

def expectedUnit (i : Nat) : Nat :=
  if i ≤ AI_RESOURCE_KIND_TENSOR_POOL then AI_RESOURCE_UNIT_BYTES else AI_RESOURCE_UNIT_ITEMS

def expectedValidFlags (i : Nat) : BitVec 32 :=
  let flags := limitUsedFlags ||| AI_RESOURCE_ENTRY_OWNER_UNATTRIBUTED
  if i = AI_RESOURCE_KIND_TENSOR_POOL then flags ||| AI_RESOURCE_ENTRY_HIGH_WATER_VALID else flags

/-- The body of the first loop of `ai_resource_snapshot_valid`: `none` is `return false`. -/
def entryCheck (sampledAtNs : Nat) (counts : KindCounts) (x : Entry × Nat) : Option KindCounts :=
  let (entry, i) := x
  if entry.kind ≠ i || !aiResourceKindValid entry.kind || !aiResourceUnitValid entry.unit ||
      entry.unit ≠ expectedUnit i || entry.validFlags ≠ expectedValidFlags i ||
      entry.reserved0 ≠ 0 || entry.lastObservedNs ≠ sampledAtNs ||
      !resourceEntryOwnerContractValid entry then none
  else
    let counts :=
      if entry.has AI_RESOURCE_ENTRY_LIMIT_VALID then
        { counts with limitKinds := counts.limitKinds + 1 }
      else counts
    let counts :=
      if entry.has AI_RESOURCE_ENTRY_USED_VALID then
        { counts with usedKinds := counts.usedKinds + 1 }
      else counts
    if entry.validFlags &&& limitUsedFlags = limitUsedFlags && entry.limit < entry.used then none
    else do
      let counts ←
        if entry.has AI_RESOURCE_ENTRY_HIGH_WATER_VALID then
          if entry.highWater < entry.used || entry.limit < entry.highWater then none
          else some { counts with highWaterKinds := counts.highWaterKinds + 1 }
        else if entry.highWater ≠ 0 then none
        else some counts
      if entry.has AI_RESOURCE_ENTRY_DENIED_VALID then
        some { counts with deniedKinds := counts.deniedKinds + 1 }
      else if entry.denied ≠ 0 then none
      else some counts

/-- The first `if` of `ai_resource_snapshot_valid`. -/
def headerValid (snapshot : Snapshot) : Bool :=
  snapshot.schemaVersion == AI_RESOURCE_SCHEMA_VERSION &&
  snapshot.structSize == SNAPSHOT_SIZE &&
  snapshot.observationOnly == 1 &&
  snapshot.kindCount == AI_RESOURCE_KIND_COUNT &&
  snapshot.unitCount == AI_RESOURCE_UNIT_COUNT &&
  snapshot.entryCount == AI_RESOURCE_KIND_COUNT &&
  snapshot.entryCapacity == AI_RESOURCE_LEDGER_CAPACITY &&
  snapshot.sourceFlags == AI_RESOURCE_SOURCE_ALL_CURRENT &&
  snapshot.sampledAtNs != 0 &&
  snapshot.sampleSequence != 0

/-- `ai_resource_snapshot_valid`.  The second loop runs up to `entry_capacity`, which the header
check has compared with the length of the array. -/
def aiResourceSnapshotValid (snapshot : Snapshot) : Bool :=
  if !headerValid snapshot then false
  else
    let (entries, tail) := snapshot.entries.toList.splitAt snapshot.entryCount
    match entries.zipIdx.foldlM (entryCheck snapshot.sampledAtNs) ⟨0, 0, 0, 0⟩ with
    | none => false
    | some counts =>
      tail.all (· = Entry.zero) &&
      counts = ⟨5, 5, 1, 0⟩ &&
      !aiResourceKindValid AI_RESOURCE_KIND_COUNT &&
      !aiResourceUnitValid AI_RESOURCE_UNIT_COUNT

def resourceSnapshotMatchesSources (snapshot : Snapshot) (sources : Sources) : Bool :=
  let heap := snapshot.entries.get ⟨AI_RESOURCE_KIND_KERNEL_HEAP, by decide⟩
  let tensor := snapshot.entries.get ⟨AI_RESOURCE_KIND_TENSOR_POOL, by decide⟩
  let fabric := snapshot.entries.get ⟨AI_RESOURCE_KIND_MEMORY_FABRIC_WINDOWS, by decide⟩
  let rings := snapshot.entries.get ⟨AI_RESOURCE_KIND_INFERENCE_RING_REGISTRATIONS, by decide⟩
  let sched := snapshot.entries.get ⟨AI_RESOURCE_KIND_SCHEDULER_RUNNABLE, by decide⟩
  heap.limit = sources.heap.total && heap.used = sources.heap.used &&
  tensor.limit = sources.tensor.totalMemory && tensor.used = sources.tensor.usedMemory &&
  tensor.highWater = sources.tensor.peakUsage &&
  fabric.limit = MEMORY_FABRIC_MAX_WINDOWS && fabric.used = sources.fabric.activeWindows &&
  rings.limit = AI_INFER_RING_CAPACITY && rings.used = sources.rings.registeredRings &&
  sched.limit = MAX_AI_TASKS && sched.used = sources.sched.runnableTasks

/-- The validator checks the header, then the entries in use, then that the others are zero. -/
theorem valid_iff (snapshot : Snapshot) : aiResourceSnapshotValid snapshot = true ↔
    headerValid snapshot = true ∧
    (snapshot.entries.toList.take AI_RESOURCE_KIND_COUNT).zipIdx.foldlM
      (entryCheck snapshot.sampledAtNs) ⟨0, 0, 0, 0⟩ = some ⟨5, 5, 1, 0⟩ ∧
    ∀ e ∈ snapshot.entries.toList.drop AI_RESOURCE_KIND_COUNT, e = Entry.zero := by
  unfold aiResourceSnapshotValid
  cases hheader : headerValid snapshot with
  | false => simp
  | true =>
    have hcount : snapshot.entryCount = AI_RESOURCE_KIND_COUNT := by
      simp only [headerValid, Bool.and_eq_true, beq_iff_eq] at hheader
      tauto
    rw [hcount, List.splitAt_eq]
    cases hfold : (snapshot.entries.toList.take AI_RESOURCE_KIND_COUNT).zipIdx.foldlM
        (entryCheck snapshot.sampledAtNs) ⟨0, 0, 0, 0⟩ with
    | none => simp [hfold]
    | some counts =>
      simp [hfold, aiResourceKindValid, aiResourceUnitValid, and_comm]

/-! ## What the validator asks of the sources -/

/-- What is in use is within the limits. -/
structure Sources.Within (s : Sources) : Prop where
  heap : s.heap.used ≤ s.heap.total
  tensorUsed : s.tensor.usedMemory ≤ s.tensor.peakUsage
  tensorPeak : s.tensor.peakUsage ≤ s.tensor.totalMemory
  windows : s.fabric.activeWindows ≤ MEMORY_FABRIC_MAX_WINDOWS
  rings : s.rings.registeredRings ≤ AI_INFER_RING_CAPACITY
  runnable : s.sched.runnableTasks ≤ MAX_AI_TASKS

section

variable {limit used peak now : Nat} {counts : KindCounts}

/-- The flags that the entry of kind `i` is built with. -/
def entryFlags (i : Nat) : BitVec 32 :=
  if i = AI_RESOURCE_KIND_TENSOR_POOL then limitUsedFlags ||| AI_RESOURCE_ENTRY_HIGH_WATER_VALID
  else limitUsedFlags

/-- What is asked of the numbers in the entry of kind `i`. -/
def EntryWithin (i limit used peak : Nat) : Prop :=
  used ≤ limit ∧ if i = AI_RESOURCE_KIND_TENSOR_POOL then used ≤ peak ∧ peak ≤ limit else peak = 0

theorem entryCheck_set {i : Nat} {c : KindCounts} (hi : aiResourceKindValid i = true) :
    entryCheck now counts
      (resourceEntrySet i (expectedUnit i) (entryFlags i) limit used peak now, i) = some c ↔
    EntryWithin i limit used peak ∧ ⟨counts.limitKinds + 1, counts.usedKinds + 1,
      counts.highWaterKinds + (if i = AI_RESOURCE_KIND_TENSOR_POOL then 1 else 0),
      counts.deniedKinds⟩ = c := by
  have hunit : aiResourceUnitValid (expectedUnit i) = true := by
    unfold expectedUnit
    split <;> rfl
  have hflags : expectedValidFlags i = entryFlags i ||| AI_RESOURCE_ENTRY_OWNER_UNATTRIBUTED := by
    unfold expectedValidFlags entryFlags
    split <;> rfl
  have hset : entryFlags i ||| AI_RESOURCE_ENTRY_OWNER_UNATTRIBUTED =
      if i = AI_RESOURCE_KIND_TENSOR_POOL then 0x17#32 else 0x13#32 := by
    unfold entryFlags
    split <;> rfl
  simp only [entryCheck, resourceEntrySet, resourceEntryOwnerContractValid, Entry.has, hi, hunit,
    hflags, hset, EntryWithin]
  split
  · simp +decide only [if_true, if_false]
    grind
  · simp +decide
    grind

end

theorem entriesCheck_build (sources : Sources) (now sequence : Nat) :
    ((resourceSnapshotBuild sources now sequence).entries.toList.take
      AI_RESOURCE_KIND_COUNT).zipIdx.foldlM (entryCheck now) ⟨0, 0, 0, 0⟩ = some ⟨5, 5, 1, 0⟩ ↔
      sources.Within := by
  have hentries : ((resourceSnapshotBuild sources now sequence).entries.toList.take
      AI_RESOURCE_KIND_COUNT).zipIdx =
      [(resourceEntrySet 0 (expectedUnit 0) (entryFlags 0) sources.heap.total sources.heap.used 0
          now, 0),
        (resourceEntrySet 1 (expectedUnit 1) (entryFlags 1) sources.tensor.totalMemory
          sources.tensor.usedMemory sources.tensor.peakUsage now, 1),
        (resourceEntrySet 2 (expectedUnit 2) (entryFlags 2) MEMORY_FABRIC_MAX_WINDOWS
          sources.fabric.activeWindows 0 now, 2),
        (resourceEntrySet 3 (expectedUnit 3) (entryFlags 3) AI_INFER_RING_CAPACITY
          sources.rings.registeredRings 0 now, 3),
        (resourceEntrySet 4 (expectedUnit 4) (entryFlags 4) MAX_AI_TASKS
          sources.sched.runnableTasks 0 now, 4)] := rfl
  rw [hentries]
  simp +decide [Option.bind_eq_some_iff, entryCheck_set, EntryWithin]
  constructor
  · rintro ⟨hheap, ⟨-, hused, hpeak⟩, hwindows, hrings, hrunnable⟩
    exact ⟨hheap, hused, hpeak, hwindows, hrings, hrunnable⟩
  · rintro ⟨hheap, hused, hpeak, hwindows, hrings, hrunnable⟩
    exact ⟨hheap, ⟨hused.trans hpeak, hused, hpeak⟩, hwindows, hrings, hrunnable⟩

/-- The validator accepts what was built from sources within their limits, and nothing else. -/
theorem valid_build_iff (sources : Sources) (now sequence : Nat) :
    aiResourceSnapshotValid (resourceSnapshotBuild sources now sequence) = true ↔
      sources.Within ∧ now ≠ 0 ∧ sequence ≠ 0 := by
  have hheader : headerValid (resourceSnapshotBuild sources now sequence) = true ↔
      now ≠ 0 ∧ sequence ≠ 0 := by simp [headerValid, resourceSnapshotBuild]
  rw [valid_iff, hheader, ← entriesCheck_build sources now sequence]
  have htail : ∀ e ∈ (resourceSnapshotBuild sources now sequence).entries.toList.drop
      AI_RESOURCE_KIND_COUNT, e = Entry.zero := by
    intro e he
    have he' : e ∈ [Entry.zero, Entry.zero, Entry.zero] := he
    simpa using he'
  constructor
  · rintro ⟨hheader, hentries, -⟩
    exact ⟨hentries, hheader⟩
  · rintro ⟨hentries, hheader⟩
    exact ⟨hheader, hentries, htail⟩

/-! ## Reading the ledger -/

/-- The subsystems the ledger samples, and its own state. -/
structure Kernel where
  heap : HeapState
  fabric : MemoryFabric.Sys
  rings : List InferRing
  sched : SchedState
  resourceReady : Bool
  sampleSequence : Nat

/-- What `resource_sources_read` collects, next to the snapshot of the scheduler. -/
def Kernel.sources (k : Kernel) (sched : QueueSnapshot) : Sources where
  heap := heapGetStats k.heap
  tensor := k.fabric.mm.globalStats
  fabric := memoryFabricPressureRead k.fabric.fabric
  rings := aiInferRingRuntime k.rings
  sched := sched

/-- `resource_sources_read`; the fabric has no reason to refuse. -/
def resourceSourcesRead (now : Nat) (k : Kernel) : (AiosStatus × Option Snapshot) × Kernel :=
  match aiSchedQueueSnapshot k.sched with
  | (.ok, some sched) =>
    let sources := k.sources sched
    let k := { k with sampleSequence := u64 (k.sampleSequence + 1) }
    ((.ok, some (resourceSnapshotBuild sources (u64 now) k.sampleSequence)), k)
  | _ => ((.errIo, none), k)

def aiResourceRead (hasOut : Bool) (now : Nat) (k : Kernel) :
    (AiosStatus × Option Snapshot) × Kernel :=
  if !hasOut || !k.resourceReady then ((.errInval, none), k) else resourceSourcesRead now k

/-- The sources `ai_resource_init` makes up. -/
def syntheticSources : Sources where
  heap := ⟨1009, 109, 0, 0, 0, 0⟩
  tensor := { MemStats.zero with totalMemory := 2003, usedMemory := 211, peakUsage := 307 }
  fabric := ⟨3⟩
  rings := ⟨7, 0, 0, 0, 0, 0, false, false⟩
  sched := ⟨0, 0, 11, 0, 0, false, 0, fun _ => 0⟩

def Snapshot.setEntry (snapshot : Snapshot) (i : Fin AI_RESOURCE_LEDGER_CAPACITY)
    (f : Entry → Entry) : Snapshot :=
  { snapshot with entries := snapshot.entries.set i.val (f (snapshot.entries.get i)) i.isLt }

/-- The four snapshots `ai_resource_init` wants rejected. -/
def invalidSnapshots (snapshot : Snapshot) : List Snapshot :=
  [{ snapshot with entryCount := AI_RESOURCE_LEDGER_CAPACITY + 1 },
    snapshot.setEntry ⟨AI_RESOURCE_KIND_KERNEL_HEAP, by decide⟩ fun e =>
      { e with validFlags := e.validFlags ||| AI_RESOURCE_ENTRY_NODE_ID_VALID },
    snapshot.setEntry ⟨AI_RESOURCE_KIND_TENSOR_POOL, by decide⟩ fun e =>
      { e with highWater := u64 (e.limit + 1) },
    snapshot.setEntry ⟨AI_RESOURCE_KIND_COUNT, by decide⟩ fun e => { e with used := 1 }]

def aiResourceInit (now : Nat) (k : Kernel) : AiosStatus × Kernel :=
  let k := { k with resourceReady := false, sampleSequence := 0 }
  if (aiResourceRead false now k).1.1 ≠ .errInval || (aiResourceRead true now k).1.1 ≠ .errInval then
    (.errIo, k)
  else
    match aiResourceRead true now { k with resourceReady := true } with
    | ((.ok, some snapshot), k) =>
      let mapping := resourceSnapshotBuild syntheticSources 1234567 41
      if !aiResourceSnapshotValid snapshot then (.errIo, { k with resourceReady := false })
      else if !aiResourceSnapshotValid mapping ||
          !resourceSnapshotMatchesSources mapping syntheticSources then
        (.errIo, { k with resourceReady := false })
      else if (invalidSnapshots snapshot).any aiResourceSnapshotValid then
        (.errIo, { k with resourceReady := false })
      else (.ok, k)
    | ((status, _), k) =>
      (if status = .ok then .errIo else status, { k with resourceReady := false })

theorem step_of_foldlM {α β : Type} {f : β → α → Option β} {x : α} {r : β} :
    ∀ {xs : List α} {b : β}, xs.foldlM f b = some r → x ∈ xs → ∃ b b', f b x = some b'
  | y :: ys, b, hfold, hx => by
    obtain ⟨b', hstep, hrest⟩ := Option.bind_eq_some_iff.mp hfold
    rcases List.mem_cons.mp hx with rfl | hx
    · exact ⟨b, b', hstep⟩
    · exact step_of_foldlM hrest hx

theorem entryCheck_flags {now : Nat} {counts counts' : KindCounts} {e : Entry} {i : Nat}
    (hcheck : entryCheck now counts (e, i) = some counts') :
    e.validFlags = expectedValidFlags i := by
  unfold entryCheck at hcheck
  simp only [] at hcheck
  split at hcheck
  · exact nomatch hcheck
  · rename_i hpass
    simp only [Bool.or_eq_true, decide_eq_true_eq, not_or, not_not] at hpass
    tauto

/-- The self test rejects its four snapshots, unless the limit of the tensor pool is the largest
word. -/
theorem invalidSnapshots_rejected (sources : Sources) (now sequence : Nat)
    (htotal : sources.tensor.totalMemory + 1 < 2 ^ 64) :
    (invalidSnapshots (resourceSnapshotBuild sources now sequence)).any
      aiResourceSnapshotValid = false := by
  rw [List.any_eq_false]
  intro bad hbad hvalid
  obtain ⟨hheader, hentries, htail⟩ := (valid_iff bad).mp hvalid
  simp only [invalidSnapshots, List.mem_cons, List.not_mem_nil, or_false] at hbad
  rcases hbad with rfl | rfl | rfl | rfl
  · -- the count of entries
    simp [headerValid, AI_RESOURCE_LEDGER_CAPACITY, AI_RESOURCE_KIND_COUNT] at hheader
  · -- a flag of the heap's entry
    obtain ⟨counts, counts', hcheck⟩ := step_of_foldlM hentries List.mem_cons_self
    have hflags : limitUsedFlags ||| AI_RESOURCE_ENTRY_OWNER_UNATTRIBUTED |||
        AI_RESOURCE_ENTRY_NODE_ID_VALID = expectedValidFlags 0 := entryCheck_flags hcheck
    exact absurd hflags (by decide)
  · -- the high-water mark of the tensor pool
    obtain ⟨counts, counts', hcheck⟩ :=
      step_of_foldlM hentries (List.mem_cons_of_mem _ List.mem_cons_self)
    have hwithin := (entryCheck_set (i := 1) rfl).mp hcheck
    have hbound : sources.tensor.totalMemory < u64 (sources.tensor.totalMemory + 1) := by
      rw [u64_eq htotal]
      exact Nat.lt_succ_self _
    exact absurd hwithin.1.2.2 hbound.not_ge
  · -- an entry past the last one
    have hzero : { Entry.zero with used := 1 } = Entry.zero := htail _ List.mem_cons_self
    exact absurd hzero (by decide)

section

variable {k : Kernel} {q : QueueSnapshot} {now : Nat}

theorem aiResourceRead_ready (hready : k.resourceReady = true)
    (hsched : aiSchedQueueSnapshot k.sched = (.ok, some q)) :
    aiResourceRead true now k =
      ((.ok, some (resourceSnapshotBuild (k.sources q) (u64 now) (u64 (k.sampleSequence + 1)))),
        { k with sampleSequence := u64 (k.sampleSequence + 1) }) := by
  simp [aiResourceRead, resourceSourcesRead, hready, hsched]

theorem aiResourceRead_kernel (hasOut : Bool) (now : Nat) (k : Kernel) :
    (aiResourceRead hasOut now k).2 = k ∧ (aiResourceRead hasOut now k).1.2 = none ∨
      (aiResourceRead hasOut now k).2 = { k with sampleSequence := u64 (k.sampleSequence + 1) } ∧
        ∃ snapshot, (aiResourceRead hasOut now k).1.2 = some snapshot := by
  unfold aiResourceRead
  split
  · exact .inl ⟨rfl, rfl⟩
  · unfold resourceSourcesRead
    split
    · exact .inr ⟨rfl, _, rfl⟩
    · exact .inl ⟨rfl, rfl⟩

/-- An initialisation changes nothing but the ledger, and has taken one sample if the ledger is
ready. -/
theorem aiResourceInit_kernel (now : Nat) (k : Kernel) : ∃ ready sequence,
    (aiResourceInit now k).2 = { k with resourceReady := ready, sampleSequence := sequence } ∧
      (ready = true → sequence = 1) := by
  unfold aiResourceInit
  simp only []
  split
  · exact ⟨false, 0, rfl, nofun⟩
  · have hread := aiResourceRead_kernel true now
      { k with resourceReady := true, sampleSequence := 0 }
    split
    · rename_i snapshot k' hcall
      rw [hcall] at hread
      rcases hread with ⟨-, hnone⟩ | ⟨rfl, -⟩
      · exact nomatch hnone
      · split
        · exact ⟨false, _, rfl, nofun⟩
        iterate 2
          split
          · exact ⟨false, _, rfl, nofun⟩
        · exact ⟨true, _, rfl, fun _ => rfl⟩
    · rename_i status out k' _ hcall
      rw [hcall] at hread
      rcases hread with ⟨rfl, -⟩ | ⟨rfl, -⟩
      · exact ⟨false, _, rfl, nofun⟩
      · exact ⟨false, _, rfl, nofun⟩

theorem aiResourceInit_ok (hsched : aiSchedQueueSnapshot k.sched = (.ok, some q))
    (hwithin : (k.sources q).Within) (hnow : u64 now ≠ 0)
    (htotal : k.fabric.mm.globalStats.totalMemory + 1 < 2 ^ 64) :
    aiResourceInit now k = (.ok, { k with resourceReady := true, sampleSequence := 1 }) := by
  have hread := @aiResourceRead_ready { k with resourceReady := true, sampleSequence := 0 } q now rfl
    hsched
  have hvalid := (valid_build_iff (k.sources q) (u64 now) (u64 (0 + 1))).mpr
    ⟨hwithin, hnow, by decide⟩
  have hrejected := invalidSnapshots_rejected (k.sources q) (u64 now) (u64 (0 + 1)) htotal
  have hmapping : aiResourceSnapshotValid (resourceSnapshotBuild syntheticSources 1234567 41) = true :=
    (valid_build_iff _ _ _).mpr ⟨by constructor <;> decide, by decide, by decide⟩
  have hmatches : resourceSnapshotMatchesSources (resourceSnapshotBuild syntheticSources 1234567 41)
      syntheticSources = true := by decide
  unfold aiResourceInit
  rw [if_neg (by simp [aiResourceRead]), hread]
  have hsources : { k with resourceReady := true, sampleSequence := 0 }.sources q = k.sources q := rfl
  simp only [hsources, hvalid, hmapping, hmatches, hrejected, Bool.not_true, Bool.or_self,
    Bool.false_eq_true, if_false]
  rfl

end

end AiosKernel.Resource
