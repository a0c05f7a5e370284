/-
# `AiosKernel.KernelRoom.Management` — the registry of `kernel/core/kernel_room_management.c`

A snapshot of the registry is three tables of records: cells, the nodes in them
and the nodebits of the nodes.  `kernel_room_management_snapshot_valid` walks
through the tables and compares records pair by pair.  `Hierarchy` says what the
tables are meant to be, a tree of records with distinct names that agree on
their generation, and the result is that every accepted snapshot is one.
-/
import AiosKernel.Lib.Table

namespace AiosKernel.KernelRoom

open Table

def KERNEL_ROOM_MANAGEMENT_SCHEMA_VERSION : UInt32 := 1
def KERNEL_ROOM_MANAGEMENT_GENERATION : UInt64 := 1
def KERNEL_ROOM_CELL_CAPACITY : Nat := 2
def KERNEL_ROOM_NODE_CAPACITY : Nat := 4
def KERNEL_ROOM_NODEBIT_CAPACITY : Nat := 8
def KERNEL_ROOM_CELL_ID_MAIN : UInt32 := 1
def KERNEL_ROOM_NODE_ID_MAIN_AI : UInt32 := 101
def KERNEL_ROOM_NODEBIT_ID_PRESENT : UInt32 := 1001
def KERNEL_ROOM_NODEBIT_ID_SOURCE_BOUND : UInt32 := 1002
def KERNEL_ROOM_BOOTSTRAP_SOURCE_ID : UInt32 := 1
def KERNEL_ROOM_SOURCE_BOOTSTRAP : UInt32 := 1

def KERNEL_ROOM_NAMESPACE_INVALID : UInt32 := 0
def KERNEL_ROOM_NAMESPACE_CELL : UInt32 := 1
def KERNEL_ROOM_NAMESPACE_NODE : UInt32 := 2
def KERNEL_ROOM_NAMESPACE_NODEBIT : UInt32 := 3
def KERNEL_ROOM_NAMESPACE_COUNT : UInt32 := 4

def KERNEL_ROOM_CELL_KIND_INVALID : UInt32 := 0
def KERNEL_ROOM_CELL_KIND_MAIN : UInt32 := 1
def KERNEL_ROOM_CELL_KIND_COUNT : UInt32 := 2
def KERNEL_ROOM_CELL_STATE_INVALID : UInt32 := 0
def KERNEL_ROOM_CELL_STATE_ACTIVE : UInt32 := 1
def KERNEL_ROOM_CELL_STATE_COUNT : UInt32 := 2
def KERNEL_ROOM_NODE_KIND_INVALID : UInt32 := 0
def KERNEL_ROOM_NODE_KIND_AI_SERVICE : UInt32 := 1
def KERNEL_ROOM_NODE_KIND_COUNT : UInt32 := 2
def KERNEL_ROOM_NODE_STATE_INVALID : UInt32 := 0
def KERNEL_ROOM_NODE_STATE_DECLARED : UInt32 := 1
def KERNEL_ROOM_NODE_STATE_COUNT : UInt32 := 2
def KERNEL_ROOM_NODEBIT_CLASS_INVALID : UInt32 := 0
def KERNEL_ROOM_NODEBIT_CLASS_STATE : UInt32 := 1
def KERNEL_ROOM_NODEBIT_CLASS_VALIDITY : UInt32 := 2
def KERNEL_ROOM_NODEBIT_CLASS_COUNT : UInt32 := 3
def KERNEL_ROOM_NODEBIT_KEY_INVALID : UInt32 := 0
def KERNEL_ROOM_NODEBIT_KEY_PRESENT : UInt32 := 1
def KERNEL_ROOM_NODEBIT_KEY_SOURCE_BOUND : UInt32 := 2
def KERNEL_ROOM_NODEBIT_KEY_COUNT : UInt32 := 3

def KERNEL_ROOM_RECORD_SOURCE_VALID : UInt32 := 0x01
def KERNEL_ROOM_RECORD_PARENT_VALID : UInt32 := 0x02
def KERNEL_ROOM_RECORD_GENERATION_VALID : UInt32 := 0x04
def KERNEL_ROOM_RECORD_ALL_VALID_FLAGS : UInt32 := 0x0F

/-! ## Records -/

structure CellRecord where
  schemaVersion : UInt32
  structSize : UInt32
  namespaceId : UInt32
  cellId : UInt32
  kind : UInt32
  state : UInt32
  validFlags : UInt32
  sourceKind : UInt32
  sourceId : UInt32
  boundNodeCount : UInt32
  generation : UInt64
  sourceGeneration : UInt64
  deriving DecidableEq, Repr

/-- The bytes of a cell; the words leave no gaps. -/
def CellRecord.bytes (c : CellRecord) : List UInt8 :=
  layout [(4, c.schemaVersion.toNat), (4, c.structSize.toNat), (4, c.namespaceId.toNat),
    (4, c.cellId.toNat), (4, c.kind.toNat), (4, c.state.toNat), (4, c.validFlags.toNat),
    (4, c.sourceKind.toNat), (4, c.sourceId.toNat), (4, c.boundNodeCount.toNat),
    (8, c.generation.toNat), (8, c.sourceGeneration.toNat)]

structure NodeRecord where
  schemaVersion : UInt32
  structSize : UInt32
  namespaceId : UInt32
  nodeId : UInt32
  kind : UInt32
  state : UInt32
  validFlags : UInt32
  sourceKind : UInt32
  sourceId : UInt32
  parentCellId : UInt32
  generation : UInt64
  parentGeneration : UInt64
  sourceGeneration : UInt64
  deriving DecidableEq, Repr

def NodeRecord.bytes (n : NodeRecord) : List UInt8 :=
  layout [(4, n.schemaVersion.toNat), (4, n.structSize.toNat), (4, n.namespaceId.toNat),
    (4, n.nodeId.toNat), (4, n.kind.toNat), (4, n.state.toNat), (4, n.validFlags.toNat),
    (4, n.sourceKind.toNat), (4, n.sourceId.toNat), (4, n.parentCellId.toNat),
    (8, n.generation.toNat), (8, n.parentGeneration.toNat), (8, n.sourceGeneration.toNat)]

structure NodebitRecord where
  schemaVersion : UInt32
  structSize : UInt32
  namespaceId : UInt32
  nodebitId : UInt32
  classId : UInt32
  key : UInt32
  value : UInt32
  validFlags : UInt32
  sourceKind : UInt32
  sourceId : UInt32
  parentNodeId : UInt32
  reserved0 : UInt32
  generation : UInt64
  parentGeneration : UInt64
  sourceGeneration : UInt64
  deriving DecidableEq, Repr

def NodebitRecord.bytes (b : NodebitRecord) : List UInt8 :=
  layout [(4, b.schemaVersion.toNat), (4, b.structSize.toNat), (4, b.namespaceId.toNat),
    (4, b.nodebitId.toNat), (4, b.classId.toNat), (4, b.key.toNat), (4, b.value.toNat),
    (4, b.validFlags.toNat), (4, b.sourceKind.toNat), (4, b.sourceId.toNat),
    (4, b.parentNodeId.toNat), (4, b.reserved0.toNat), (8, b.generation.toNat),
    (8, b.parentGeneration.toNat), (8, b.sourceGeneration.toNat)]

/-- `sizeof` of the records and of the snapshot. -/
def CellRecord.size : UInt32 := 56
def NodeRecord.size : UInt32 := 64
def NodebitRecord.size : UInt32 := 72
def ManagementSnapshot.size : UInt32 := 1024

example (c : CellRecord) (n : NodeRecord) (b : NodebitRecord) :
    c.bytes.length = CellRecord.size.toNat ∧ n.bytes.length = NodeRecord.size.toNat ∧
      b.bytes.length = NodebitRecord.size.toNat := ⟨rfl, rfl, rfl⟩

structure ManagementSnapshot where
  schemaVersion : UInt32
  structSize : UInt32
  observationOnly : UInt32
  managementOnly : UInt32
  ready : UInt32
  cellCount : UInt32
  nodeCount : UInt32
  boundNodeCount : UInt32
  nodebitCount : UInt32
  boundNodebitCount : UInt32
  cellCapacity : UInt32
  nodeCapacity : UInt32
  nodebitCapacity : UInt32
  sourceValid : UInt32
  generationValid : UInt32
  reserved0 : UInt32
  registryGeneration : UInt64
  sampleSequence : UInt64
  cells : Vector CellRecord KERNEL_ROOM_CELL_CAPACITY
  nodes : Vector NodeRecord KERNEL_ROOM_NODE_CAPACITY
  nodebits : Vector NodebitRecord KERNEL_ROOM_NODEBIT_CAPACITY

/-! ## The validator -/

/-- A value strictly between the first and the last of an enumeration. -/
def between (lo hi x : UInt32) : Bool := lo < x && x < hi

def namespaceValid : UInt32 → Bool :=
  between KERNEL_ROOM_NAMESPACE_INVALID KERNEL_ROOM_NAMESPACE_COUNT

def sourceValid (sourceKind sourceId : UInt32) : Bool :=
  sourceKind == KERNEL_ROOM_SOURCE_BOOTSTRAP && sourceId == KERNEL_ROOM_BOOTSTRAP_SOURCE_ID

def cellKindValid : UInt32 → Bool :=
  between KERNEL_ROOM_CELL_KIND_INVALID KERNEL_ROOM_CELL_KIND_COUNT

def cellStateValid : UInt32 → Bool :=
  between KERNEL_ROOM_CELL_STATE_INVALID KERNEL_ROOM_CELL_STATE_COUNT

def nodeKindValid : UInt32 → Bool :=
  between KERNEL_ROOM_NODE_KIND_INVALID KERNEL_ROOM_NODE_KIND_COUNT

def nodeStateValid : UInt32 → Bool :=
  between KERNEL_ROOM_NODE_STATE_INVALID KERNEL_ROOM_NODE_STATE_COUNT

def nodebitClassValid : UInt32 → Bool :=
  between KERNEL_ROOM_NODEBIT_CLASS_INVALID KERNEL_ROOM_NODEBIT_CLASS_COUNT

def nodebitKeyValid : UInt32 → Bool :=
  between KERNEL_ROOM_NODEBIT_KEY_INVALID KERNEL_ROOM_NODEBIT_KEY_COUNT

def nodebitClassKeyValid (classId key : UInt32) : Bool :=
  (classId == KERNEL_ROOM_NODEBIT_CLASS_STATE && key == KERNEL_ROOM_NODEBIT_KEY_PRESENT) ||
    (classId == KERNEL_ROOM_NODEBIT_CLASS_VALIDITY && key == KERNEL_ROOM_NODEBIT_KEY_SOURCE_BOUND)

namespace ManagementSnapshot

variable (s : ManagementSnapshot)

def usedCells : List CellRecord := s.cells.toList.take s.cellCount.toNat

def usedNodes : List NodeRecord := s.nodes.toList.take s.nodeCount.toNat

def usedNodebits : List NodebitRecord := s.nodebits.toList.take s.nodebitCount.toNat

def findCell (cellId : UInt32) : Option CellRecord := s.usedCells.find? (·.cellId == cellId)

def findNode (nodeId : UInt32) : Option NodeRecord := s.usedNodes.find? (·.nodeId == nodeId)

/-- The fields of a cell that the loop of `cell_records_valid` looks at first. -/
def cellFieldsValid (cell : CellRecord) : Bool :=
  cell.schemaVersion == KERNEL_ROOM_MANAGEMENT_SCHEMA_VERSION &&
  cell.structSize == CellRecord.size &&
  cell.namespaceId == KERNEL_ROOM_NAMESPACE_CELL &&
  namespaceValid cell.namespaceId &&
  cell.cellId != 0 &&
  cellKindValid cell.kind &&
  cellStateValid cell.state &&
  cell.validFlags == KERNEL_ROOM_RECORD_SOURCE_VALID ||| KERNEL_ROOM_RECORD_GENERATION_VALID &&
  KernelRoom.sourceValid cell.sourceKind cell.sourceId &&
  cell.generation == s.registryGeneration &&
  cell.sourceGeneration == s.registryGeneration

def childCount (cell : CellRecord) : Nat := s.usedNodes.countP (·.parentCellId == cell.cellId)

def cellRecordsValid : Bool :=
  eachAfter (fun before cell =>
    s.cellFieldsValid cell &&
    before.all (·.cellId != cell.cellId) &&
    cell.boundNodeCount.toNat == s.childCount cell &&
    s.childCount cell ≤ s.nodeCapacity.toNat) s.usedCells

def nodeFieldsValid (node : NodeRecord) : Bool :=
  node.schemaVersion == KERNEL_ROOM_MANAGEMENT_SCHEMA_VERSION &&
  node.structSize == NodeRecord.size &&
  node.namespaceId == KERNEL_ROOM_NAMESPACE_NODE &&
  namespaceValid node.namespaceId &&
  node.nodeId != 0 &&
  nodeKindValid node.kind &&
  nodeStateValid node.state &&
  node.validFlags == KERNEL_ROOM_RECORD_SOURCE_VALID ||| KERNEL_ROOM_RECORD_PARENT_VALID |||
    KERNEL_ROOM_RECORD_GENERATION_VALID &&
  KernelRoom.sourceValid node.sourceKind node.sourceId &&
  node.generation == s.registryGeneration &&
  node.sourceGeneration == s.registryGeneration

def nodeRecordsValid : Bool :=
  eachAfter (fun before node =>
    s.nodeFieldsValid node &&
    (s.findCell node.parentCellId).any (node.parentGeneration == ·.generation) &&
    before.all (·.nodeId != node.nodeId)) s.usedNodes

def nodebitFieldsValid (nodebit : NodebitRecord) : Bool :=
  nodebit.schemaVersion == KERNEL_ROOM_MANAGEMENT_SCHEMA_VERSION &&
  nodebit.structSize == NodebitRecord.size &&
  nodebit.namespaceId == KERNEL_ROOM_NAMESPACE_NODEBIT &&
  namespaceValid nodebit.namespaceId &&
  nodebit.nodebitId != 0 &&
  nodebitClassValid nodebit.classId &&
  nodebitKeyValid nodebit.key &&
  nodebitClassKeyValid nodebit.classId nodebit.key &&
  nodebit.value == 1 &&
  nodebit.validFlags == KERNEL_ROOM_RECORD_ALL_VALID_FLAGS &&
  KernelRoom.sourceValid nodebit.sourceKind nodebit.sourceId &&
  nodebit.reserved0 == 0 &&
  nodebit.generation == s.registryGeneration &&
  nodebit.sourceGeneration == s.registryGeneration

def nodebitRecordsValid : Bool :=
  eachAfter (fun before nodebit =>
    s.nodebitFieldsValid nodebit &&
    (s.findNode nodebit.parentNodeId).any (nodebit.parentGeneration == ·.generation) &&
    before.all (·.nodebitId != nodebit.nodebitId)) s.usedNodebits

def headerValid : Bool :=
  s.schemaVersion == KERNEL_ROOM_MANAGEMENT_SCHEMA_VERSION &&
  s.structSize == ManagementSnapshot.size &&
  s.observationOnly == 1 &&
  s.managementOnly == 1 &&
  s.ready == 1 &&
  s.cellCount != 0 &&
  s.cellCount.toNat ≤ KERNEL_ROOM_CELL_CAPACITY &&
  s.nodeCount != 0 &&
  s.nodeCount.toNat ≤ KERNEL_ROOM_NODE_CAPACITY &&
  s.boundNodeCount == s.nodeCount &&
  s.nodebitCount != 0 &&
  s.nodebitCount.toNat ≤ KERNEL_ROOM_NODEBIT_CAPACITY &&
  s.boundNodebitCount == s.nodebitCount &&
  s.cellCapacity.toNat == KERNEL_ROOM_CELL_CAPACITY &&
  s.nodeCapacity.toNat == KERNEL_ROOM_NODE_CAPACITY &&
  s.nodebitCapacity.toNat == KERNEL_ROOM_NODEBIT_CAPACITY &&
  s.sourceValid == 1 &&
  s.generationValid == 1 &&
  s.reserved0 == 0 &&
  s.registryGeneration != 0 &&
  s.sampleSequence != 0

end ManagementSnapshot

/-- `tail_zero`, for the records from `used` on, as bytes. -/
def tailZero (table : List (List UInt8)) (used : UInt32) : Bool :=
  (table.drop used.toNat).all fun bytes => bytes.all (· == 0)

def managementSnapshotValid (s : ManagementSnapshot) : Bool :=
  s.headerValid &&
  s.cellRecordsValid &&
  s.nodeRecordsValid &&
  s.nodebitRecordsValid &&
  -- the header has compared the capacities with the lengths of the tables
  tailZero (s.cells.toList.map CellRecord.bytes) s.cellCount &&
  tailZero (s.nodes.toList.map NodeRecord.bytes) s.nodeCount &&
  tailZero (s.nodebits.toList.map NodebitRecord.bytes) s.nodebitCount

/-! ## What an accepted snapshot is -/

/-- The three tables hold a tree of records. -/
structure Hierarchy (s : ManagementSnapshot) : Prop where
  /-- The used records are the first ones, as many as the counts say. -/
  counts : s.usedCells.length = s.cellCount.toNat ∧ s.usedNodes.length = s.nodeCount.toNat ∧
    s.usedNodebits.length = s.nodebitCount.toNat
  cellIds : (s.usedCells.map (·.cellId)).Nodup ∧ ∀ cell ∈ s.usedCells, cell.cellId ≠ 0
  nodeIds : (s.usedNodes.map (·.nodeId)).Nodup ∧ ∀ node ∈ s.usedNodes, node.nodeId ≠ 0
  nodebitIds : (s.usedNodebits.map (·.nodebitId)).Nodup ∧
    ∀ nodebit ∈ s.usedNodebits, nodebit.nodebitId ≠ 0
  nodeParents : ∀ node ∈ s.usedNodes, ∃ cell ∈ s.usedCells,
    cell.cellId = node.parentCellId ∧ cell.generation = node.parentGeneration
  nodebitParents : ∀ nodebit ∈ s.usedNodebits, ∃ node ∈ s.usedNodes,
    node.nodeId = nodebit.parentNodeId ∧ node.generation = nodebit.parentGeneration
  generations : (∀ cell ∈ s.usedCells, cell.generation = s.registryGeneration) ∧
    (∀ node ∈ s.usedNodes, node.generation = s.registryGeneration) ∧
    ∀ nodebit ∈ s.usedNodebits, nodebit.generation = s.registryGeneration
  /-- A cell knows how many nodes name it. -/
  boundNodes : ∀ cell ∈ s.usedCells,
    cell.boundNodeCount.toNat = s.usedNodes.countP (·.parentCellId == cell.cellId)
  boundSum : (s.usedCells.map (·.boundNodeCount.toNat)).sum = s.nodeCount.toNat
  /-- The records after the used ones are zero, byte by byte. -/
  unused : (∀ cell ∈ s.cells.toList.drop s.cellCount.toNat, ∀ b ∈ cell.bytes, b = 0) ∧
    (∀ node ∈ s.nodes.toList.drop s.nodeCount.toNat, ∀ b ∈ node.bytes, b = 0) ∧
    ∀ nodebit ∈ s.nodebits.toList.drop s.nodebitCount.toNat, ∀ b ∈ nodebit.bytes, b = 0

section

variable {s : ManagementSnapshot}

theorem tailZero_iff {α : Type} {bytes : α → List UInt8} {table : List α} {used : UInt32}
    (h : tailZero (table.map bytes) used = true) :
    ∀ x ∈ table.drop used.toNat, ∀ b ∈ bytes x, b = 0 := by
  intro x hx b hb
  rw [tailZero, ← List.map_drop, List.all_map, List.all_eq_true] at h
  exact beq_iff_eq.mp (List.all_eq_true.mp (h x hx) b hb)

theorem used_length {α : Type} {n : Nat} (table : Vector α n) {count : Nat} (h : count ≤ n) :
    (table.toList.take count).length = count := by
  rw [List.length_take, Vector.length_toList, Nat.min_eq_left h]

theorem headerValid_counts (h : s.headerValid = true) :
    s.cellCount.toNat ≤ KERNEL_ROOM_CELL_CAPACITY ∧ s.nodeCount.toNat ≤ KERNEL_ROOM_NODE_CAPACITY ∧
      s.nodebitCount.toNat ≤ KERNEL_ROOM_NODEBIT_CAPACITY ∧ s.registryGeneration ≠ 0 := by
  simp only [ManagementSnapshot.headerValid, Bool.and_eq_true, decide_eq_true_eq, bne_iff_ne] at h
  tauto

theorem cell_valid (h : s.cellRecordsValid = true) :
    ∀ cell ∈ s.usedCells, cell.cellId ≠ 0 ∧ cell.generation = s.registryGeneration ∧
      cell.boundNodeCount.toNat = s.childCount cell := by
  refine eachAfter_mem h ?_
  intro before cell hcell
  simp only [ManagementSnapshot.cellFieldsValid, Bool.and_eq_true, beq_iff_eq, bne_iff_ne] at hcell
  tauto

theorem cellIds_nodup (h : s.cellRecordsValid = true) : (s.usedCells.map (·.cellId)).Nodup := by
  refine eachAfter_nodup h ?_
  intro before cell hcell
  simp only [Bool.and_eq_true] at hcell
  exact hcell.1.1.2

section

variable {α κ : Type} [BEq κ] [LawfulBEq κ] {key : α → κ} {k : κ} {table : List α} {x : α}

theorem find?_mem (h : table.find? (key · == k) = some x) : x ∈ table ∧ key x = k := by
  have hkey := List.find?_some h
  exact ⟨List.mem_of_find?_eq_some h, beq_iff_eq.mp hkey⟩

theorem find?_of_mem (h : ∃ x ∈ table, key x = k) :
    ∃ x, table.find? (key · == k) = some x ∧ x ∈ table ∧ key x = k := by
  obtain ⟨x, hx, hkey⟩ := h
  have hsome : (table.find? (key · == k)).isSome = true :=
    List.find?_isSome.mpr ⟨x, hx, beq_iff_eq.mpr hkey⟩
  obtain ⟨y, hy⟩ := Option.isSome_iff_exists.mp hsome
  exact ⟨y, hy, find?_mem hy⟩

theorem find?_any {p : α → Bool} (h : (table.find? (key · == k)).any p = true) :
    ∃ x ∈ table, key x = k ∧ p x = true := by
  cases hfind : table.find? (key · == k) with
  | none => rw [hfind] at h; exact nomatch h
  | some x =>
    rw [hfind] at h
    exact ⟨x, (find?_mem hfind).1, (find?_mem hfind).2, h⟩

end

theorem node_valid (h : s.nodeRecordsValid = true) :
    ∀ node ∈ s.usedNodes, node.nodeId ≠ 0 ∧ node.namespaceId = KERNEL_ROOM_NAMESPACE_NODE ∧
      nodeKindValid node.kind = true ∧ node.generation = s.registryGeneration ∧
      ∃ cell ∈ s.usedCells, cell.cellId = node.parentCellId ∧
        cell.generation = node.parentGeneration := by
  refine eachAfter_mem h ?_
  intro before node hnode
  simp only [Bool.and_eq_true] at hnode
  obtain ⟨⟨hfields, hparent⟩, -⟩ := hnode
  obtain ⟨cell, hcell, hid, hgen⟩ := find?_any hparent
  simp only [ManagementSnapshot.nodeFieldsValid, Bool.and_eq_true, beq_iff_eq, bne_iff_ne] at hfields
  have hparent : ∃ cell ∈ s.usedCells, cell.cellId = node.parentCellId ∧
      cell.generation = node.parentGeneration := ⟨cell, hcell, hid, (beq_iff_eq.mp hgen).symm⟩
  tauto

theorem nodeIds_nodup (h : s.nodeRecordsValid = true) : (s.usedNodes.map (·.nodeId)).Nodup := by
  refine eachAfter_nodup h ?_
  intro before node hnode
  exact (Bool.and_eq_true_iff.mp hnode).2

theorem nodebit_valid (h : s.nodebitRecordsValid = true) :
    ∀ nodebit ∈ s.usedNodebits, nodebit.nodebitId ≠ 0 ∧ nodebit.generation = s.registryGeneration ∧
      ∃ node ∈ s.usedNodes, node.nodeId = nodebit.parentNodeId ∧
        node.generation = nodebit.parentGeneration := by
  refine eachAfter_mem h ?_
  intro before nodebit hnodebit
  simp only [Bool.and_eq_true] at hnodebit
  obtain ⟨⟨hfields, hparent⟩, -⟩ := hnodebit
  obtain ⟨node, hnode, hid, hgen⟩ := find?_any hparent
  simp only [ManagementSnapshot.nodebitFieldsValid, Bool.and_eq_true, beq_iff_eq, bne_iff_ne] at hfields
  have hparent : ∃ node ∈ s.usedNodes, node.nodeId = nodebit.parentNodeId ∧
      node.generation = nodebit.parentGeneration := ⟨node, hnode, hid, (beq_iff_eq.mp hgen).symm⟩
  tauto

theorem nodebitIds_nodup (h : s.nodebitRecordsValid = true) :
    (s.usedNodebits.map (·.nodebitId)).Nodup := by
  refine eachAfter_nodup h ?_
  intro before nodebit hnodebit
  exact (Bool.and_eq_true_iff.mp hnodebit).2

theorem hierarchy_of_valid (h : managementSnapshotValid s = true) : Hierarchy s := by
  simp only [managementSnapshotValid, Bool.and_eq_true] at h
  obtain ⟨⟨⟨⟨⟨⟨hheader, hcells⟩, hnodes⟩, hnodebits⟩, hcellTail⟩, hnodeTail⟩, hnodebitTail⟩ := h
  obtain ⟨hcellCount, hnodeCount, hnodebitCount, -⟩ := headerValid_counts hheader
  have hnodeLength : s.usedNodes.length = s.nodeCount.toNat := used_length s.nodes hnodeCount
  have hbound : ∀ cell ∈ s.usedCells, cell.boundNodeCount.toNat = s.childCount cell :=
    fun cell hcell => (cell_valid hcells cell hcell).2.2
  refine
    { counts := ⟨used_length s.cells hcellCount, hnodeLength, used_length s.nodebits hnodebitCount⟩
      cellIds := ⟨cellIds_nodup hcells, fun cell hcell => (cell_valid hcells cell hcell).1⟩
      nodeIds := ⟨nodeIds_nodup hnodes, fun node hnode => (node_valid hnodes node hnode).1⟩
      nodebitIds := ⟨nodebitIds_nodup hnodebits,
        fun nodebit hnodebit => (nodebit_valid hnodebits nodebit hnodebit).1⟩
      nodeParents := fun node hnode => (node_valid hnodes node hnode).2.2.2.2
      nodebitParents := fun nodebit hnodebit => (nodebit_valid hnodebits nodebit hnodebit).2.2
      generations := ⟨fun cell hcell => (cell_valid hcells cell hcell).2.1,
        fun node hnode => (node_valid hnodes node hnode).2.2.2.1,
        fun nodebit hnodebit => (nodebit_valid hnodebits nodebit hnodebit).2.1⟩
      boundNodes := hbound
      boundSum := ?_
      unused := ⟨tailZero_iff hcellTail, tailZero_iff hnodeTail, tailZero_iff hnodebitTail⟩ }
  -- each node is counted once, by the cell it names
  have hparents : ∀ node ∈ s.usedNodes, node.parentCellId ∈ s.usedCells.map (·.cellId) := by
    intro node hnode
    obtain ⟨cell, hcell, hid, -⟩ := (node_valid hnodes node hnode).2.2.2.2
    exact List.mem_map.mpr ⟨cell, hcell, hid⟩
  rw [List.map_congr_left hbound, ← hnodeLength, ← sum_countP (cellIds_nodup hcells) hparents,
    List.map_map]
  rfl

end

theorem node_of_valid {s : ManagementSnapshot} (h : managementSnapshotValid s = true) :
    s.registryGeneration ≠ 0 ∧ ∀ node ∈ s.usedNodes,
      node.namespaceId = KERNEL_ROOM_NAMESPACE_NODE ∧
        node.kind = KERNEL_ROOM_NODE_KIND_AI_SERVICE := by
  simp only [managementSnapshotValid, Bool.and_eq_true] at h
  refine ⟨(headerValid_counts h.1.1.1.1.1.1).2.2.2, ?_⟩
  intro node hnode
  obtain ⟨-, hspace, hkind, -⟩ := node_valid h.1.1.1.1.2 node hnode
  refine ⟨hspace, ?_⟩
  simp only [nodeKindValid, between, Bool.and_eq_true, decide_eq_true_eq, UInt32.lt_iff_toNat_lt]
    at hkind
  refine UInt32.toNat_inj.mp (le_antisymm ?_ ?_)
  · exact Nat.le_of_lt_succ hkind.2
  · exact hkind.1

/-! ## The snapshot of the kernel -/

def CellRecord.zero : CellRecord := ⟨0, 0, 0, 0, 0, 0, 0, 0, 0, 0, 0, 0⟩
def NodeRecord.zero : NodeRecord := ⟨0, 0, 0, 0, 0, 0, 0, 0, 0, 0, 0, 0, 0⟩
def NodebitRecord.zero : NodebitRecord := ⟨0, 0, 0, 0, 0, 0, 0, 0, 0, 0, 0, 0, 0, 0, 0⟩

/-- `cells[0]` of `seed_snapshot`. -/
def seedCell : CellRecord where
  schemaVersion := KERNEL_ROOM_MANAGEMENT_SCHEMA_VERSION
  structSize := CellRecord.size
  namespaceId := KERNEL_ROOM_NAMESPACE_CELL
  cellId := KERNEL_ROOM_CELL_ID_MAIN
  kind := KERNEL_ROOM_CELL_KIND_MAIN
  state := KERNEL_ROOM_CELL_STATE_ACTIVE
  validFlags := KERNEL_ROOM_RECORD_SOURCE_VALID ||| KERNEL_ROOM_RECORD_GENERATION_VALID
  sourceKind := KERNEL_ROOM_SOURCE_BOOTSTRAP
  sourceId := KERNEL_ROOM_BOOTSTRAP_SOURCE_ID
  boundNodeCount := 1
  generation := KERNEL_ROOM_MANAGEMENT_GENERATION
  sourceGeneration := KERNEL_ROOM_MANAGEMENT_GENERATION

/-- `nodes[0]` of `seed_snapshot`. -/
def seedNode : NodeRecord where
  schemaVersion := KERNEL_ROOM_MANAGEMENT_SCHEMA_VERSION
  structSize := NodeRecord.size
  namespaceId := KERNEL_ROOM_NAMESPACE_NODE
  nodeId := KERNEL_ROOM_NODE_ID_MAIN_AI
  kind := KERNEL_ROOM_NODE_KIND_AI_SERVICE
  state := KERNEL_ROOM_NODE_STATE_DECLARED
  validFlags := KERNEL_ROOM_RECORD_SOURCE_VALID ||| KERNEL_ROOM_RECORD_PARENT_VALID |||
    KERNEL_ROOM_RECORD_GENERATION_VALID
  sourceKind := KERNEL_ROOM_SOURCE_BOOTSTRAP
  sourceId := KERNEL_ROOM_BOOTSTRAP_SOURCE_ID
  parentCellId := KERNEL_ROOM_CELL_ID_MAIN
  generation := KERNEL_ROOM_MANAGEMENT_GENERATION
  parentGeneration := KERNEL_ROOM_MANAGEMENT_GENERATION
  sourceGeneration := KERNEL_ROOM_MANAGEMENT_GENERATION

/-- `nodebits[0]` of `seed_snapshot`. -/
def seedPresent : NodebitRecord where
  schemaVersion := KERNEL_ROOM_MANAGEMENT_SCHEMA_VERSION
  structSize := NodebitRecord.size
  namespaceId := KERNEL_ROOM_NAMESPACE_NODEBIT
  nodebitId := KERNEL_ROOM_NODEBIT_ID_PRESENT
  classId := KERNEL_ROOM_NODEBIT_CLASS_STATE
  key := KERNEL_ROOM_NODEBIT_KEY_PRESENT
  value := 1
  validFlags := KERNEL_ROOM_RECORD_ALL_VALID_FLAGS
  sourceKind := KERNEL_ROOM_SOURCE_BOOTSTRAP
  sourceId := KERNEL_ROOM_BOOTSTRAP_SOURCE_ID
  parentNodeId := KERNEL_ROOM_NODE_ID_MAIN_AI
  reserved0 := 0
  generation := KERNEL_ROOM_MANAGEMENT_GENERATION
  parentGeneration := KERNEL_ROOM_MANAGEMENT_GENERATION
  sourceGeneration := KERNEL_ROOM_MANAGEMENT_GENERATION

/-- `nodebits[1]` of `seed_snapshot`. -/
def seedSourceBound : NodebitRecord :=
  { seedPresent with
    nodebitId := KERNEL_ROOM_NODEBIT_ID_SOURCE_BOUND
    classId := KERNEL_ROOM_NODEBIT_CLASS_VALIDITY
    key := KERNEL_ROOM_NODEBIT_KEY_SOURCE_BOUND }

/-- `seed_snapshot`. -/
def seedManagement : ManagementSnapshot where
  schemaVersion := KERNEL_ROOM_MANAGEMENT_SCHEMA_VERSION
  structSize := ManagementSnapshot.size
  observationOnly := 1
  managementOnly := 1
  ready := 1
  cellCount := 1
  nodeCount := 1
  boundNodeCount := 1
  nodebitCount := 2
  boundNodebitCount := 2
  cellCapacity := KERNEL_ROOM_CELL_CAPACITY.toUInt32
  nodeCapacity := KERNEL_ROOM_NODE_CAPACITY.toUInt32
  nodebitCapacity := KERNEL_ROOM_NODEBIT_CAPACITY.toUInt32
  sourceValid := 1
  generationValid := 1
  reserved0 := 0
  registryGeneration := KERNEL_ROOM_MANAGEMENT_GENERATION
  sampleSequence := 1
  cells := #v[seedCell, .zero]
  nodes := #v[seedNode, .zero, .zero, .zero]
  nodebits := #v[seedPresent, seedSourceBound, .zero, .zero, .zero, .zero, .zero, .zero]

theorem seedManagement_valid : managementSnapshotValid seedManagement = true := by decide +kernel

/-- Every snapshot that `kernel_room_management_snapshot_valid` accepts holds a tree of records, and
the one of the kernel itself is among them. -/
theorem accepted_hierarchy : (∀ s, managementSnapshotValid s = true → Hierarchy s) ∧
    managementSnapshotValid seedManagement = true :=
  ⟨fun _ => hierarchy_of_valid, seedManagement_valid⟩

theorem accepted_hierarchy_seed : Hierarchy seedManagement :=
  accepted_hierarchy.1 seedManagement (by decide +kernel)

end AiosKernel.KernelRoom
