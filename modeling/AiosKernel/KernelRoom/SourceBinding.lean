/-
# `AiosKernel.KernelRoom.SourceBinding` — the validator of `kernel/core/kernel_room_source_binding.c`

A binding ties a node of the registry to the agent that the orchestrator runs
under it.  `validate_with_sources` goes through some thirty tests in a fixed
order and answers with the reason of the first that fails.  Here it is read
backwards: `BindingPasses` is what the tests leave of one binding, both ways, so
what is accepted and that the seed is accepted come from the same lemma.
-/
import AiosKernel.KernelRoom.Management
import AiosKernel.Types

namespace AiosKernel.KernelRoom

open Table

def KERNEL_ROOM_SOURCE_BINDING_SCHEMA_VERSION : UInt32 := 1
def KERNEL_ROOM_SOURCE_BINDING_GENERATION : UInt64 := 1
def KERNEL_ROOM_SOURCE_BINDING_CAPACITY : Nat := 2
def KERNEL_ROOM_SOURCE_BINDING_TAIL_SIZE : Nat := 32
def KERNEL_ROOM_BINDING_ALL_VALID_FLAGS : UInt32 := 0x7F

def KERNEL_ROOM_BINDING_SOURCE_NAMESPACE_NATIVE_SLM_AGENT_TREE : UInt32 := 1
def KERNEL_ROOM_BINDING_SOURCE_KIND_AI_SERVICE : UInt32 := 1
def KERNEL_ROOM_BINDING_SOURCE_ROLE_MAIN : UInt32 := 1
def KERNEL_ROOM_BINDING_SOURCE_LIFECYCLE_ACTIVE : UInt32 := 1

def SLM_AGENT_SOURCE_SCHEMA_VERSION : UInt32 := 1
def SLM_AGENT_SOURCE_NAMESPACE_AGENT_TREE : UInt32 := 1
def SLM_AGENT_SOURCE_KIND_AI_SERVICE : UInt32 := 1
def SLM_AGENT_SOURCE_ROLE_MAIN : UInt32 := 1
def SLM_AGENT_SOURCE_LIFECYCLE_ACTIVE : UInt32 := 1
def SLM_AGENT_SOURCE_ALL_VALID_FLAGS : UInt32 := 0x1F

/-! ## Sources and bindings -/

/-- `slm_agent_source_snapshot_t`. -/
structure SourceSnapshot where
  schemaVersion : UInt32
  structSize : UInt32
  ready : UInt32
  sourceNamespace : UInt32
  sourceId : UInt32
  sourceKind : UInt32
  sourceRole : UInt32
  lifecycleState : UInt32
  validFlags : UInt32
  reserved0 : UInt32
  sourceInstance : UInt64
  sourceGeneration : UInt64
  sampleSequence : UInt64
  deriving DecidableEq, Repr

structure BindingRecord where
  schemaVersion : UInt32
  structSize : UInt32
  canonicalNamespace : UInt32
  canonicalId : UInt32
  canonicalKind : UInt32
  parentCellId : UInt32
  sourceNamespace : UInt32
  sourceId : UInt32
  sourceKind : UInt32
  sourceRole : UInt32
  lifecycleState : UInt32
  validFlags : UInt32
  canonicalGeneration : UInt64
  parentGeneration : UInt64
  sourceInstance : UInt64
  sourceGeneration : UInt64
  deriving DecidableEq, Repr

def BindingRecord.bytes (b : BindingRecord) : List UInt8 :=
  layout [(4, b.schemaVersion.toNat), (4, b.structSize.toNat), (4, b.canonicalNamespace.toNat),
    (4, b.canonicalId.toNat), (4, b.canonicalKind.toNat), (4, b.parentCellId.toNat),
    (4, b.sourceNamespace.toNat), (4, b.sourceId.toNat), (4, b.sourceKind.toNat),
    (4, b.sourceRole.toNat), (4, b.lifecycleState.toNat), (4, b.validFlags.toNat),
    (8, b.canonicalGeneration.toNat), (8, b.parentGeneration.toNat), (8, b.sourceInstance.toNat),
    (8, b.sourceGeneration.toNat)]

/-- `sizeof` of the three. -/
def SourceSnapshot.size : UInt32 := 64
def BindingRecord.size : UInt32 := 80
def BindingSnapshot.size : UInt32 := 256

structure BindingSnapshot where
  schemaVersion : UInt32
  structSize : UInt32
  observationOnly : UInt32
  managementOnly : UInt32
  ready : UInt32
  bindingCount : UInt32
  bindingCapacity : UInt32
  lastRejectReason : UInt32
  sourceValid : UInt32
  generationValid : UInt32
  bindingValid : UInt32
  reserved0 : UInt32
  bindingGeneration : UInt64
  sampleSequence : UInt64
  bindings : Vector BindingRecord KERNEL_ROOM_SOURCE_BINDING_CAPACITY
  reservedTail : Vector UInt8 KERNEL_ROOM_SOURCE_BINDING_TAIL_SIZE

def BindingSnapshot.usedBindings (s : BindingSnapshot) : List BindingRecord :=
  s.bindings.toList.take s.bindingCount.toNat

/-- `kernel_room_binding_reject_reason_t`. -/
inductive Reject where
  | rejectNone
  | rejectInitOrder
  | rejectMissing
  | rejectSchema
  | rejectMalformed
  | rejectOverflow
  | rejectDuplicate
  | rejectOrphan
  | rejectNamespace
  | rejectKind
  | rejectRole
  | rejectInstance
  | rejectZeroGeneration
  | rejectGenerationRollback
  | rejectStale
  | rejectTail
  deriving DecidableEq, Repr

def KERNEL_ROOM_BINDING_REJECT_NONE : UInt32 := 0

def agentSourceSnapshotValid (source : SourceSnapshot) : Bool :=
  source.schemaVersion == SLM_AGENT_SOURCE_SCHEMA_VERSION &&
  source.structSize == SourceSnapshot.size &&
  source.ready == 1 &&
  source.sourceNamespace == SLM_AGENT_SOURCE_NAMESPACE_AGENT_TREE &&
  source.sourceId == 1 &&
  source.sourceKind == SLM_AGENT_SOURCE_KIND_AI_SERVICE &&
  source.sourceRole == SLM_AGENT_SOURCE_ROLE_MAIN &&
  source.lifecycleState == SLM_AGENT_SOURCE_LIFECYCLE_ACTIVE &&
  source.validFlags == SLM_AGENT_SOURCE_ALL_VALID_FLAGS &&
  source.reserved0 == 0 &&
  source.sourceInstance != 0 &&
  source.sourceGeneration != 0 &&
  source.sampleSequence != 0

/-! ## The validator -/

/-- The five maps from the words of the source to the words of a binding know one value each. -/
def mapOnly (known result : UInt32) (x : UInt32) : Option UInt32 :=
  if x = known then some result else none

def mapSourceNamespace : UInt32 → Option UInt32 :=
  mapOnly SLM_AGENT_SOURCE_NAMESPACE_AGENT_TREE
    KERNEL_ROOM_BINDING_SOURCE_NAMESPACE_NATIVE_SLM_AGENT_TREE

def mapSourceKind : UInt32 → Option UInt32 :=
  mapOnly SLM_AGENT_SOURCE_KIND_AI_SERVICE KERNEL_ROOM_BINDING_SOURCE_KIND_AI_SERVICE

def mapSourceKindToCanonical : UInt32 → Option UInt32 :=
  mapOnly SLM_AGENT_SOURCE_KIND_AI_SERVICE KERNEL_ROOM_NODE_KIND_AI_SERVICE

def mapSourceRole : UInt32 → Option UInt32 :=
  mapOnly SLM_AGENT_SOURCE_ROLE_MAIN KERNEL_ROOM_BINDING_SOURCE_ROLE_MAIN

def mapSourceLifecycle : UInt32 → Option UInt32 :=
  mapOnly SLM_AGENT_SOURCE_LIFECYCLE_ACTIVE KERNEL_ROOM_BINDING_SOURCE_LIFECYCLE_ACTIVE

/-- The `mapped_` locals. -/
structure Mapped where
  mappedNamespace : UInt32
  mappedKind : UInt32
  mappedCanonicalKind : UInt32
  mappedRole : UInt32
  mappedLifecycle : UInt32

def mapSource (source : SourceSnapshot) : Option Mapped := do
  let mappedNamespace ← mapSourceNamespace source.sourceNamespace
  let mappedKind ← mapSourceKind source.sourceKind
  let mappedCanonicalKind ← mapSourceKindToCanonical source.sourceKind
  let mappedRole ← mapSourceRole source.sourceRole
  let mappedLifecycle ← mapSourceLifecycle source.lifecycleState
  return ⟨mappedNamespace, mappedKind, mappedCanonicalKind, mappedRole, mappedLifecycle⟩

/-- The tests before the source is mapped. -/
def headerReject (s : BindingSnapshot) (management : ManagementSnapshot) (source : SourceSnapshot) :
    Reject :=
  if source.ready ≠ 1 then .rejectMissing
  else if managementSnapshotValid management = false ∨ agentSourceSnapshotValid source = false then
    .rejectMalformed
  else if s.schemaVersion ≠ KERNEL_ROOM_SOURCE_BINDING_SCHEMA_VERSION ∨
      s.structSize ≠ BindingSnapshot.size then .rejectSchema
  else if s.bindingCount = 0 then .rejectMissing
  else if KERNEL_ROOM_SOURCE_BINDING_CAPACITY < s.bindingCount.toNat ∨
      s.bindingCapacity.toNat ≠ KERNEL_ROOM_SOURCE_BINDING_CAPACITY then .rejectOverflow
  else if s.bindingGeneration = 0 then .rejectZeroGeneration
  else if s.observationOnly ≠ 1 ∨ s.managementOnly ≠ 1 ∨ s.ready ≠ 1 ∨
      s.lastRejectReason ≠ KERNEL_ROOM_BINDING_REJECT_NONE ∨ s.sourceValid ≠ 1 ∨
      s.generationValid ≠ 1 ∨ s.bindingValid ≠ 1 ∨ s.reserved0 ≠ 0 ∨ s.sampleSequence = 0 then
    .rejectMalformed
  else if tailZero (s.bindings.toList.map BindingRecord.bytes) s.bindingCount = false ∨
      s.reservedTail.toList.all (· == 0) = false then .rejectTail
  else .rejectNone

/-- Two bindings of one node, or of one source. -/
def BindingRecord.collides (prior binding : BindingRecord) : Bool :=
  (prior.canonicalNamespace == binding.canonicalNamespace &&
    prior.canonicalId == binding.canonicalId) ||
  (prior.sourceNamespace == binding.sourceNamespace && prior.sourceId == binding.sourceId &&
    prior.sourceInstance == binding.sourceInstance)

/-- The tests on a binding and the node and the cell it names. -/
def linkReject (source : SourceSnapshot) (mapped : Mapped) (before : List BindingRecord)
    (binding : BindingRecord) (node : NodeRecord) (parent : CellRecord) : Reject :=
  if node.parentCellId ≠ parent.cellId then .rejectOrphan
  else if binding.canonicalKind ≠ mapped.mappedCanonicalKind ∨
      node.kind ≠ mapped.mappedCanonicalKind ∨ binding.sourceKind ≠ mapped.mappedKind then
    .rejectKind
  else if binding.sourceRole ≠ mapped.mappedRole then .rejectRole
  else if binding.sourceId ≠ source.sourceId then .rejectOrphan
  else if binding.sourceInstance ≠ source.sourceInstance then .rejectInstance
  else if binding.canonicalGeneration < node.generation ∨
      binding.parentGeneration < parent.generation ∨
      binding.sourceGeneration < source.sourceGeneration then .rejectStale
  else if node.generation < binding.canonicalGeneration ∨
      parent.generation < binding.parentGeneration ∨
      source.sourceGeneration < binding.sourceGeneration then .rejectGenerationRollback
  else if before.any (·.collides binding) = true then .rejectDuplicate
  else .rejectNone

/-- The body of the loop over the bindings. -/
def bindingReject (management : ManagementSnapshot) (source : SourceSnapshot) (mapped : Mapped)
    (before : List BindingRecord) (binding : BindingRecord) : Reject :=
  if binding.schemaVersion ≠ KERNEL_ROOM_SOURCE_BINDING_SCHEMA_VERSION ∨
      binding.structSize ≠ BindingRecord.size then .rejectSchema
  else if binding.canonicalGeneration = 0 ∨ binding.parentGeneration = 0 ∨
      binding.sourceGeneration = 0 then .rejectZeroGeneration
  else if binding.sourceInstance = 0 then .rejectInstance
  else if binding.validFlags ≠ KERNEL_ROOM_BINDING_ALL_VALID_FLAGS ∨
      binding.lifecycleState ≠ mapped.mappedLifecycle then .rejectMalformed
  else if binding.canonicalNamespace ≠ KERNEL_ROOM_NAMESPACE_NODE ∨
      binding.sourceNamespace ≠ mapped.mappedNamespace then .rejectNamespace
  else
    match management.findNode binding.canonicalId, management.findCell binding.parentCellId with
    | some node, some parent => linkReject source mapped before binding node parent
    | _, _ => .rejectOrphan

/-- The same source with an older generation. -/
def BindingRecord.rollsBack (binding previous : BindingRecord) : Bool :=
  binding.sourceNamespace == previous.sourceNamespace && binding.sourceId == previous.sourceId &&
    binding.sourceInstance == previous.sourceInstance &&
    binding.sourceGeneration < previous.sourceGeneration

/-- The loops over the bindings of the previous snapshot.  Nothing has checked its count: `none` is
a read past the end of its table. -/
def previousReject (previous : BindingSnapshot) : List BindingRecord → Option Reject
  | [] => some .rejectNone
  | binding :: rest =>
    if previous.usedBindings.any (binding.rollsBack ·) = true then some .rejectGenerationRollback
    else if KERNEL_ROOM_SOURCE_BINDING_CAPACITY < previous.bindingCount.toNat then none
    else previousReject previous rest

/-- The tests against the previous snapshot. -/
def historyReject (s : BindingSnapshot) (previous : Option BindingSnapshot) : Option Reject :=
  match previous with
  | none => some .rejectNone
  | some previous =>
    if s.bindingGeneration < previous.bindingGeneration then some .rejectGenerationRollback
    else previousReject previous s.usedBindings

/-- `validate_with_sources`; a pointer may be null. -/
def validateWithSources (snapshot : Option BindingSnapshot) (management : Option ManagementSnapshot)
    (source : Option SourceSnapshot) (previous : Option BindingSnapshot) : Option Reject :=
  match snapshot, management, source with
  | some s, some management, some source =>
    let header := headerReject s management source
    if header ≠ .rejectNone then some header
    else
      match mapSource source with
      | none => some .rejectMalformed
      | some mapped =>
        let answer := firstAfter .rejectNone (bindingReject management source mapped) []
          s.usedBindings
        if answer ≠ .rejectNone then some answer else historyReject s previous
  | _, _, _ => some .rejectInitOrder

/-! ## What passes -/

theorem ite_eq_rejectNone {c : Prop} [Decidable c] {r rest : Reject} (hr : r ≠ .rejectNone) :
    (if c then r else rest) = .rejectNone ↔ ¬c ∧ rest = .rejectNone := by
  by_cases hc : c
  · simp [hc, hr]
  · simp [hc]

variable {s : BindingSnapshot} {management : ManagementSnapshot} {source : SourceSnapshot}
  {previous : Option BindingSnapshot} {mapped : Mapped} {before : List BindingRecord}
  {binding : BindingRecord} {node : NodeRecord} {parent : CellRecord}

/-- The header of an accepted snapshot. -/
@[mk_iff] structure HeaderPasses (s : BindingSnapshot) : Prop where
  schemaVersion : s.schemaVersion = KERNEL_ROOM_SOURCE_BINDING_SCHEMA_VERSION
  structSize : s.structSize = BindingSnapshot.size
  bindingCount : s.bindingCount ≠ 0 ∧ s.bindingCount.toNat ≤ KERNEL_ROOM_SOURCE_BINDING_CAPACITY
  bindingCapacity : s.bindingCapacity.toNat = KERNEL_ROOM_SOURCE_BINDING_CAPACITY
  bindingGeneration : s.bindingGeneration ≠ 0
  flags : s.observationOnly = 1 ∧ s.managementOnly = 1 ∧ s.ready = 1 ∧
    s.lastRejectReason = KERNEL_ROOM_BINDING_REJECT_NONE ∧ s.sourceValid = 1 ∧
    s.generationValid = 1 ∧ s.bindingValid = 1 ∧ s.reserved0 = 0 ∧ s.sampleSequence ≠ 0
  tail : tailZero (s.bindings.toList.map BindingRecord.bytes) s.bindingCount = true ∧
    s.reservedTail.toList.all (· == 0) = true

theorem headerReject_iff : headerReject s management source = .rejectNone ↔
    source.ready = 1 ∧ managementSnapshotValid management = true ∧
      agentSourceSnapshotValid source = true ∧ HeaderPasses s := by
  simp only [headerReject, headerPasses_iff, ite_eq_rejectNone, ne_eq, reduceCtorEq,
    not_false_eq_true, not_or, not_not, Bool.not_eq_false, not_lt, and_true, and_assoc]

/-- What the tests leave of a binding, its node and its cell. -/
@[mk_iff]
structure LinkPasses (source : SourceSnapshot) (mapped : Mapped) (before : List BindingRecord)
    (binding : BindingRecord) (node : NodeRecord) (parent : CellRecord) : Prop where
  parentCell : node.parentCellId = parent.cellId
  kinds : binding.canonicalKind = mapped.mappedCanonicalKind ∧
    node.kind = mapped.mappedCanonicalKind ∧ binding.sourceKind = mapped.mappedKind
  role : binding.sourceRole = mapped.mappedRole
  sourceId : binding.sourceId = source.sourceId
  sourceInstance : binding.sourceInstance = source.sourceInstance
  generations : binding.canonicalGeneration = node.generation ∧
    binding.parentGeneration = parent.generation ∧
    binding.sourceGeneration = source.sourceGeneration
  distinct : ∀ prior ∈ before, prior.collides binding = false

theorem linkReject_iff : linkReject source mapped before binding node parent = .rejectNone ↔
    LinkPasses source mapped before binding node parent := by
  -- a generation that is neither stale nor rolled back is the same one
  have hsame : ∀ a b : UInt64, a = b ↔ b ≤ a ∧ a ≤ b := by
    intro a b
    rw [← UInt64.le_antisymm_iff, eq_comm]
  simp only [linkReject, linkPasses_iff, hsame, ite_eq_rejectNone, ne_eq, reduceCtorEq,
    not_false_eq_true, not_or, not_not, UInt64.not_lt, List.any_eq_true, not_exists, not_and,
    Bool.not_eq_true, and_true, Classical.not_imp]
  constructor
  · rintro ⟨hp, hk, hr, hs, hi, ⟨c, p, g⟩, ⟨c', p', g'⟩, hd⟩
    exact ⟨hp, hk, hr, hs, hi, ⟨⟨c, c'⟩, ⟨p, p'⟩, g, g'⟩, hd⟩
  · rintro ⟨hp, hk, hr, hs, hi, ⟨⟨c, c'⟩, ⟨p, p'⟩, g, g'⟩, hd⟩
    exact ⟨hp, hk, hr, hs, hi, ⟨c, p, g⟩, ⟨c', p', g'⟩, hd⟩

/-- What the tests leave of a binding. -/
@[mk_iff] structure BindingPasses (management : ManagementSnapshot) (source : SourceSnapshot)
    (mapped : Mapped) (before : List BindingRecord) (binding : BindingRecord) : Prop where
  schema : binding.schemaVersion = KERNEL_ROOM_SOURCE_BINDING_SCHEMA_VERSION ∧
    binding.structSize = BindingRecord.size
  generations : binding.canonicalGeneration ≠ 0 ∧ binding.parentGeneration ≠ 0 ∧
    binding.sourceGeneration ≠ 0
  sourceInstance : binding.sourceInstance ≠ 0
  lifecycle : binding.validFlags = KERNEL_ROOM_BINDING_ALL_VALID_FLAGS ∧
    binding.lifecycleState = mapped.mappedLifecycle
  namespaces : binding.canonicalNamespace = KERNEL_ROOM_NAMESPACE_NODE ∧
    binding.sourceNamespace = mapped.mappedNamespace
  link : ∃ node parent, management.findNode binding.canonicalId = some node ∧
    management.findCell binding.parentCellId = some parent ∧
    LinkPasses source mapped before binding node parent

theorem bindingReject_iff : bindingReject management source mapped before binding = .rejectNone ↔
    BindingPasses management source mapped before binding := by
  have hlink : ∀ found foundCell,
      (match found, foundCell with
        | some node, some parent => linkReject source mapped before binding node parent
        | _, _ => .rejectOrphan) = Reject.rejectNone ↔
      ∃ node parent, found = some node ∧ foundCell = some parent ∧
        LinkPasses source mapped before binding node parent := by
    intro found foundCell
    cases found <;> cases foundCell <;> simp [linkReject_iff]
  simp only [bindingReject, bindingPasses_iff, ite_eq_rejectNone, ne_eq, reduceCtorEq,
    not_false_eq_true, not_or, not_not, hlink]

/-- A valid source has the values the maps know, and they map to the same numbers. -/
structure SourceKnown (source : SourceSnapshot) : Prop where
  ready : source.ready = 1
  sourceNamespace : mapSourceNamespace source.sourceNamespace = some source.sourceNamespace
  sourceKind : mapSourceKind source.sourceKind = some source.sourceKind
  canonicalKind : source.sourceKind = KERNEL_ROOM_NODE_KIND_AI_SERVICE
  sourceRole : mapSourceRole source.sourceRole = some source.sourceRole
  lifecycle : mapSourceLifecycle source.lifecycleState = some source.lifecycleState
  sourceInstance : source.sourceInstance ≠ 0
  sourceGeneration : source.sourceGeneration ≠ 0

theorem sourceKnown_of_valid (h : agentSourceSnapshotValid source = true) : SourceKnown source := by
  simp only [agentSourceSnapshotValid, Bool.and_eq_true, beq_iff_eq, bne_iff_ne] at h
  obtain ⟨⟨⟨⟨⟨⟨⟨⟨⟨⟨⟨⟨-, -⟩, hready⟩, hspace⟩, -⟩, hkind⟩, hrole⟩, hlifecycle⟩, -⟩, -⟩, hinstance⟩,
    hgen⟩, -⟩ := h
  exact ⟨hready, by rw [hspace]; rfl, by rw [hkind]; rfl, hkind, by rw [hrole]; rfl,
    by rw [hlifecycle]; rfl, hinstance, hgen⟩

theorem mapSource_valid (h : agentSourceSnapshotValid source = true) :
    mapSource source = some ⟨source.sourceNamespace, source.sourceKind, source.sourceKind,
      source.sourceRole, source.lifecycleState⟩ := by
  have hknown := sourceKnown_of_valid h
  have hcanonical : mapSourceKindToCanonical source.sourceKind = some source.sourceKind := by
    rw [hknown.canonicalKind]
    rfl
  rw [mapSource, hknown.sourceNamespace, hknown.sourceKind, hcanonical, hknown.sourceRole,
    hknown.lifecycle]
  rfl

theorem previousReject_none {previous : BindingSnapshot} {bindings : List BindingRecord}
    (h : previousReject previous bindings = some .rejectNone) :
    ∀ binding ∈ bindings, ∀ old ∈ previous.usedBindings, binding.rollsBack old = false := by
  induction bindings with
  | nil => simp
  | cons binding rest ih =>
    rw [previousReject] at h
    split at h
    · exact nomatch h
    rename_i hnew
    split at h
    · exact nomatch h
    rw [List.forall_mem_cons]
    refine ⟨?_, ih h⟩
    intro old hold
    rw [List.any_eq_true, not_exists] at hnew
    exact Bool.eq_false_iff.mpr fun hback => hnew old ⟨hold, hback⟩

theorem validate_none
    (h : validateWithSources (some s) (some management) (some source) previous = some .rejectNone) :
    ∃ mapped, mapSource source = some mapped ∧ managementSnapshotValid management = true ∧
      agentSourceSnapshotValid source = true ∧ HeaderPasses s ∧
      (∀ as binding bs, s.usedBindings = as ++ binding :: bs →
        BindingPasses management source mapped as binding) ∧
      historyReject s previous = some .rejectNone := by
  simp only [validateWithSources] at h
  split at h
  · rename_i hheader
    exact absurd (Option.some.inj h) hheader
  rename_i hheader
  obtain ⟨-, hmanagement, hsource, hpasses⟩ := headerReject_iff.mp (not_not.mp hheader)
  rw [mapSource_valid hsource] at h ⊢
  dsimp only at h
  split at h
  · rename_i hanswer
    exact absurd (Option.some.inj h) hanswer
  rename_i hanswer
  refine ⟨_, rfl, hmanagement, hsource, hpasses, ?_, h⟩
  intro as binding bs heq
  exact bindingReject_iff.mp (firstAfter_eq_ok.mp (not_not.mp hanswer) as binding bs heq)

/-! ## What is accepted -/

/-- The binding names a node of the registry and the cell that node is in, with the generations they
have now, and carries the source as it is now. -/
structure Binds (management : ManagementSnapshot) (source : SourceSnapshot)
    (binding : BindingRecord) : Prop where
  canonical : ∃ node ∈ management.usedNodes, node.nodeId = binding.canonicalId ∧
    node.generation = binding.canonicalGeneration ∧
    ∃ cell ∈ management.usedCells, cell.cellId = node.parentCellId ∧
      cell.cellId = binding.parentCellId ∧ cell.generation = binding.parentGeneration
  sourceId : binding.sourceId = source.sourceId
  sourceInstance : binding.sourceInstance = source.sourceInstance
  sourceGeneration : binding.sourceGeneration = source.sourceGeneration
  sourceKind : binding.sourceKind = source.sourceKind
  sourceRole : binding.sourceRole = source.sourceRole
  lifecycleState : binding.lifecycleState = source.lifecycleState

/-- Neither the snapshot nor the source of a binding goes back behind the previous snapshot. -/
structure Advances (s previous : BindingSnapshot) : Prop where
  bindingGeneration : previous.bindingGeneration ≤ s.bindingGeneration
  sourceGeneration : ∀ binding ∈ s.usedBindings, ∀ old ∈ previous.usedBindings,
    binding.sourceNamespace = old.sourceNamespace → binding.sourceId = old.sourceId →
    binding.sourceInstance = old.sourceInstance → old.sourceGeneration ≤ binding.sourceGeneration

theorem BindingPasses.binds (h : BindingPasses management source mapped before binding)
    (hmapped : mapSource source = some mapped) (hsource : agentSourceSnapshotValid source = true) :
    Binds management source binding := by
  obtain ⟨node, parent, hnode, hparent, hlink⟩ := h.link
  cases hmapped.symm.trans (mapSource_valid hsource)
  obtain ⟨hnodeMem, hnodeId⟩ := find?_mem hnode
  obtain ⟨hcellMem, hcellId⟩ := find?_mem hparent
  obtain ⟨hnodeGen, hcellGen, hsourceGen⟩ := hlink.generations
  exact ⟨⟨node, hnodeMem, hnodeId, hnodeGen.symm, parent, hcellMem, hlink.parentCell.symm, hcellId,
    hcellGen.symm⟩, hlink.sourceId, hlink.sourceInstance, hsourceGen, hlink.kinds.2.2, hlink.role,
    h.lifecycle.2⟩

theorem single_of_passes (hnonempty : s.usedBindings ≠ [])
    (h : ∀ as binding bs, s.usedBindings = as ++ binding :: bs →
      BindingPasses management source mapped as binding) :
    ∃ binding, s.usedBindings = [binding] := by
  match hused : s.usedBindings with
  | [] => exact absurd hused hnonempty
  | [binding] => exact ⟨binding, rfl⟩
  | first :: second :: rest =>
    have hfirst := h [] first (second :: rest) hused
    have hsecond := h [first] second rest hused
    obtain ⟨_, _, _, _, hlink⟩ := hfirst.link
    obtain ⟨_, _, _, _, hlink'⟩ := hsecond.link
    have hdistinct := hlink'.distinct first List.mem_cons_self
    have hcollides : first.collides second = true := by
      simp [BindingRecord.collides, hfirst.namespaces.2, hsecond.namespaces.2, hlink.sourceId,
        hlink'.sourceId, hlink.sourceInstance, hlink'.sourceInstance]
    exact absurd hcollides (Bool.eq_false_iff.mp hdistinct)

theorem advances_of_history {old : BindingSnapshot}
    (h : historyReject s (some old) = some .rejectNone) : Advances s old := by
  rw [historyReject] at h
  split at h
  · exact nomatch h
  rename_i hgen
  refine ⟨UInt64.not_lt.mp hgen, ?_⟩
  intro binding hbinding prior hprior hspace hid hinstance
  have hback := previousReject_none h binding hbinding prior hprior
  simpa [BindingRecord.rollsBack, hspace, hid, hinstance] using hback

theorem validate_of_passes (hmanagement : managementSnapshotValid management = true)
    (hsource : agentSourceSnapshotValid source = true) (hheader : HeaderPasses s)
    (hmapped : mapSource source = some mapped) (hused : s.usedBindings = [binding])
    (h : BindingPasses management source mapped [] binding) :
    validateWithSources (some s) (some management) (some source) none = some .rejectNone := by
  have hhead := headerReject_iff.mpr
    ⟨(sourceKnown_of_valid hsource).ready, hmanagement, hsource, hheader⟩
  have hwalk : firstAfter .rejectNone (bindingReject management source mapped) []
      s.usedBindings = .rejectNone := by
    rw [hused, firstAfter, if_pos (bindingReject_iff.mpr h)]
    rfl
  simp only [validateWithSources, hhead, hmapped, hwalk, ne_eq, not_true_eq_false, if_false]
  rfl

/-! ## The snapshot of the kernel -/

def BindingRecord.zero : BindingRecord := ⟨0, 0, 0, 0, 0, 0, 0, 0, 0, 0, 0, 0, 0, 0, 0, 0⟩

/-- The binding of `seed_snapshot`, once the source is mapped. -/
def seedRecord (node : NodeRecord) (parent : CellRecord) (source : SourceSnapshot)
    (sourceNamespace sourceKind sourceRole lifecycleState : UInt32) : BindingRecord where
  schemaVersion := KERNEL_ROOM_SOURCE_BINDING_SCHEMA_VERSION
  structSize := BindingRecord.size
  canonicalNamespace := node.namespaceId
  canonicalId := node.nodeId
  canonicalKind := node.kind
  parentCellId := parent.cellId
  sourceNamespace := sourceNamespace
  sourceId := source.sourceId
  sourceKind := sourceKind
  sourceRole := sourceRole
  lifecycleState := lifecycleState
  validFlags := KERNEL_ROOM_BINDING_ALL_VALID_FLAGS
  canonicalGeneration := node.generation
  parentGeneration := parent.generation
  sourceInstance := source.sourceInstance
  sourceGeneration := source.sourceGeneration

/-- The snapshot of `seed_snapshot` around its binding. -/
def seedAround (binding : BindingRecord) : BindingSnapshot where
  schemaVersion := KERNEL_ROOM_SOURCE_BINDING_SCHEMA_VERSION
  structSize := BindingSnapshot.size
  observationOnly := 1
  managementOnly := 1
  ready := 1
  bindingCount := 1
  bindingCapacity := KERNEL_ROOM_SOURCE_BINDING_CAPACITY.toUInt32
  lastRejectReason := KERNEL_ROOM_BINDING_REJECT_NONE
  sourceValid := 1
  generationValid := 1
  bindingValid := 1
  reserved0 := 0
  bindingGeneration := KERNEL_ROOM_SOURCE_BINDING_GENERATION
  sampleSequence := 1
  bindings := #v[binding, .zero]
  reservedTail := Vector.replicate KERNEL_ROOM_SOURCE_BINDING_TAIL_SIZE 0

/-- `seed_snapshot`. -/
def seedBinding (management : ManagementSnapshot) (source : SourceSnapshot) :
    Except AiosStatus BindingSnapshot :=
  match management.findNode KERNEL_ROOM_NODE_ID_MAIN_AI with
  | none => .error .errNodev
  | some node =>
    match management.findCell node.parentCellId with
    | none => .error .errNodev
    | some parent =>
      match mapSourceNamespace source.sourceNamespace, mapSourceKind source.sourceKind,
        mapSourceRole source.sourceRole, mapSourceLifecycle source.lifecycleState with
      | some sourceNamespace, some sourceKind, some sourceRole, some lifecycleState =>
        .ok (seedAround (seedRecord node parent source sourceNamespace sourceKind sourceRole
          lifecycleState))
      | _, _, _, _ => .error .errInval

theorem seedAround_header : HeaderPasses (seedAround binding) where
  schemaVersion := rfl
  structSize := rfl
  bindingCount := ⟨show (1 : UInt32) ≠ 0 by decide, show 1 ≤ 2 by decide⟩
  bindingCapacity := rfl
  bindingGeneration := show (1 : UInt64) ≠ 0 by decide
  flags := ⟨rfl, rfl, rfl, rfl, rfl, rfl, rfl, rfl, show (1 : UInt64) ≠ 0 by decide⟩
  tail := ⟨rfl, rfl⟩

theorem seedBinding_ok (hmanagement : managementSnapshotValid management = true)
    (hnode : ∃ node ∈ management.usedNodes, node.nodeId = KERNEL_ROOM_NODE_ID_MAIN_AI)
    (hsource : agentSourceSnapshotValid source = true) :
    ∃ node parent, management.findNode KERNEL_ROOM_NODE_ID_MAIN_AI = some node ∧
      management.findCell node.parentCellId = some parent ∧
      seedBinding management source = .ok (seedAround (seedRecord node parent source
        source.sourceNamespace source.sourceKind source.sourceRole source.lifecycleState)) := by
  have hknown := sourceKnown_of_valid hsource
  obtain ⟨node, hfind, hmem, -⟩ := find?_of_mem hnode
  obtain ⟨cell, hcell, hid, -⟩ := (hierarchy_of_valid hmanagement).nodeParents node hmem
  obtain ⟨parent, hparent, -, -⟩ := find?_of_mem ⟨cell, hcell, hid⟩
  have hfindNode : management.findNode KERNEL_ROOM_NODE_ID_MAIN_AI = some node := hfind
  have hfindCell : management.findCell node.parentCellId = some parent := hparent
  refine ⟨node, parent, hfindNode, hfindCell, ?_⟩
  rw [seedBinding, hfindNode]
  dsimp only
  rw [hfindCell, hknown.sourceNamespace, hknown.sourceKind, hknown.sourceRole, hknown.lifecycle]

theorem seedRecord_passes (hmanagement : managementSnapshotValid management = true)
    (hsource : agentSourceSnapshotValid source = true)
    (hnode : management.findNode KERNEL_ROOM_NODE_ID_MAIN_AI = some node)
    (hparent : management.findCell node.parentCellId = some parent) :
    BindingPasses management source ⟨source.sourceNamespace, source.sourceKind, source.sourceKind,
      source.sourceRole, source.lifecycleState⟩ [] (seedRecord node parent source
        source.sourceNamespace source.sourceKind source.sourceRole source.lifecycleState) := by
  have hknown := sourceKnown_of_valid hsource
  obtain ⟨hnodeMem, hnodeId⟩ := find?_mem hnode
  obtain ⟨hparentMem, hparentId⟩ := find?_mem hparent
  obtain ⟨hcellGen, hnodeGen, -⟩ := (hierarchy_of_valid hmanagement).generations
  obtain ⟨hzero, hfields⟩ := node_of_valid hmanagement
  obtain ⟨hspace, hkind⟩ := hfields node hnodeMem
  refine ⟨⟨rfl, rfl⟩, ⟨?_, ?_, hknown.sourceGeneration⟩, hknown.sourceInstance, ⟨rfl, rfl⟩,
    ⟨hspace, rfl⟩, node, parent, ?_, ?_, ?_⟩
  · show node.generation ≠ 0
    exact hnodeGen node hnodeMem ▸ hzero
  · show parent.generation ≠ 0
    exact hcellGen parent hparentMem ▸ hzero
  · show management.findNode node.nodeId = some node
    exact hnodeId ▸ hnode
  · show management.findCell parent.cellId = some parent
    exact hparentId ▸ hparent
  · exact ⟨hparentId.symm, ⟨hkind.trans hknown.canonicalKind.symm,
      hkind.trans hknown.canonicalKind.symm, rfl⟩, rfl, rfl, rfl, ⟨rfl, rfl, rfl⟩, by simp⟩

/-- What `validate_with_sources` accepts: exactly one binding, which names a node and its cell and
carries the source, all as they are now, and nothing older than the previous snapshot.  And with a
valid registry that has the main node, and a valid source, it accepts the seed. -/
theorem binding_validated :
    (∀ s management source previous,
      validateWithSources (some s) (some management) (some source) previous = some .rejectNone →
        s.bindingCount = 1 ∧
        (∃ binding, s.usedBindings = [binding] ∧ Binds management source binding) ∧
        ∀ old, previous = some old → Advances s old) ∧
    ∀ management source, managementSnapshotValid management = true →
      (∃ node ∈ management.usedNodes, node.nodeId = KERNEL_ROOM_NODE_ID_MAIN_AI) →
      agentSourceSnapshotValid source = true →
        ∃ s, seedBinding management source = .ok s ∧
          validateWithSources (some s) (some management) (some source) none = some .rejectNone := by
  constructor
  · intro s management source previous h
    obtain ⟨mapped, hmapped, -, hsource, hheader, hpasses, hhistory⟩ := validate_none h
    have hlength : s.usedBindings.length = s.bindingCount.toNat :=
      used_length s.bindings hheader.bindingCount.2
    have hnonempty : s.usedBindings ≠ [] := by
      intro hnil
      rw [hnil] at hlength
      exact hheader.bindingCount.1 (UInt32.toNat_inj.mp hlength.symm)
    obtain ⟨binding, hused⟩ := single_of_passes hnonempty hpasses
    refine ⟨?_, ⟨binding, hused, (hpasses [] binding [] hused).binds hmapped hsource⟩, ?_⟩
    · rw [hused] at hlength
      exact UInt32.toNat_inj.mp hlength.symm
    · rintro old rfl
      exact advances_of_history hhistory
  · intro management source hmanagement hnode hsource
    obtain ⟨node, parent, hfind, hparent, hseed⟩ := seedBinding_ok hmanagement hnode hsource
    exact ⟨_, hseed, validate_of_passes hmanagement hsource seedAround_header
      (mapSource_valid hsource) rfl (seedRecord_passes hmanagement hsource hfind hparent)⟩

/-- The source as `publish_main_agent_source` of the orchestrator leaves it at boot. -/
def bootSource : SourceSnapshot where
  schemaVersion := SLM_AGENT_SOURCE_SCHEMA_VERSION
  structSize := SourceSnapshot.size
  ready := 1
  sourceNamespace := SLM_AGENT_SOURCE_NAMESPACE_AGENT_TREE
  sourceId := 1
  sourceKind := SLM_AGENT_SOURCE_KIND_AI_SERVICE
  sourceRole := SLM_AGENT_SOURCE_ROLE_MAIN
  lifecycleState := SLM_AGENT_SOURCE_LIFECYCLE_ACTIVE
  validFlags := SLM_AGENT_SOURCE_ALL_VALID_FLAGS
  reserved0 := 0
  sourceInstance := 1
  sourceGeneration := 1
  sampleSequence := 1

theorem binding_validated_boot : ∃ s, seedBinding seedManagement bootSource = .ok s ∧
    validateWithSources (some s) (some seedManagement) (some bootSource) none =
      some .rejectNone ∧ s.bindingCount = 1 := by
  obtain ⟨s, hseed, haccepted⟩ := binding_validated.2 seedManagement bootSource (by decide +kernel)
    ⟨seedNode, by decide +kernel, rfl⟩ (by decide)
  exact ⟨s, hseed, haccepted, (binding_validated.1 s _ _ none haccepted).1⟩

end AiosKernel.KernelRoom
