/-
# `AiosKernel.Process.Journal` — what each call does to the journal

The journal is read as a sequence of groups, one per activation: ACQUIRE, at
most one TRAP_CAPTURE, and RELEASE once the run is over.  `Inv` ties the groups
to the descriptors and the current process; one lemma per kind of change says
how it moves the groups on.

That an old event still passes the validator when it is read rests on `Owned`:
what the validator compares an event with is fixed when a slot is set up, and
only the run generation, which it bounds from above, ever grows.
-/
import AiosKernel.Process.Model

namespace AiosKernel.Process

open AddressSpace (Slot)
open UserMode (AIOS_USER_KERNEL_STACK_SIZE)

/-! ## Groups -/

/-- One activation as the journal shows it. -/
structure Group where
  slot : Nat
  generation : Nat
  captured : Bool
  released : Bool
  deriving DecidableEq, Repr

def Group.kinds (g : Group) : List EventKind :=
  .acquire :: ((if g.captured then [.trapCapture] else []) ++
    (if g.released then [.release] else []))

/-- What places an event in a group: its kind, slot and run generation. -/
def tag (e : ProcessEvent) : EventKind × Nat × Nat := (e.kind, e.slot, e.runGeneration)

def Group.tags (g : Group) : List (EventKind × Nat × Nat) :=
  g.kinds.map fun k => (k, g.slot, g.generation)

/-- The committed events, oldest first. -/
def State.journal (s : State) : List ProcessEvent := (List.range s.eventCount).map s.events

/-- The groups of the activations made so far: all released, up to the last one while a
process is current. -/
def OneOpen (s : State) (groups : List Group) : Prop :=
  match s.current with
  | none => ∀ g ∈ groups, g.released = true
  | some i => ∃ gs, groups = gs ++ [⟨i, (s.processes i).runGeneration,
      (s.processes i).trapSnapshot.evidenceValid, false⟩] ∧ ∀ g ∈ gs, g.released = true

/-! ## Descriptors -/

/-- The fixed part of the descriptor in slot `i`. -/
structure Owned (p : Platform) (i : Slot) (q : BootstrapProcess) : Prop where
  pid : q.pid = BOOTSTRAP_PROCESS_PID_BASE + i
  slot : q.slot = i
  stackSize : q.kernelStackSize = AIOS_USER_KERNEL_STACK_SIZE
  stackBase : q.kernelStackBase = p.kernelStacks i
  stackTop : q.kernelStackTop = p.kernelStacks i + AIOS_USER_KERNEL_STACK_SIZE
  aligned : (p.kernelStacks i + AIOS_USER_KERNEL_STACK_SIZE) &&& 0xF = 0
  spaceSlot : q.addressSpace.slot = i
  spaceCr3 : q.addressSpace.cr3 = p.space.userPml4 i
  ready : q.addressSpace.ready = true

/-- The fields `Owned` is about. -/
def BootstrapProcess.fixed (q : BootstrapProcess) :
    Nat × Nat × BitVec 64 × BitVec 64 × BitVec 64 × AddressSpace.BootstrapSlot :=
  (q.pid, q.slot, q.kernelStackSize, q.kernelStackBase, q.kernelStackTop, q.addressSpace)

variable {p : Platform} {i : Slot} {s s' : State} {e : ProcessEvent} {q : BootstrapProcess}
  {groups : List Group}

theorem Owned.congr {q q' : BootstrapProcess} (h : Owned p i q) (hfixed : q'.fixed = q.fixed) :
    Owned p i q' := by
  simp only [BootstrapProcess.fixed, Prod.mk.injEq] at hfixed
  obtain ⟨hpid, hslot, hsize, hbase, htop, hspace⟩ := hfixed
  exact ⟨hpid.trans h.pid, hslot.trans h.slot, hsize.trans h.stackSize, hbase.trans h.stackBase,
    htop.trans h.stackTop, h.aligned, hspace ▸ h.spaceSlot, hspace ▸ h.spaceCr3,
    hspace ▸ h.ready⟩

theorem Owned.descriptorValid (h : Owned p i (s.processes i)) :
    processDescriptorValid p s i = true := by
  simpa [processDescriptorValid, h.pid, h.slot, h.stackSize, h.stackBase, h.stackTop,
    h.spaceSlot, h.ready] using h.aligned

theorem processEventFieldsValid_mono {s t : State} (hs : Owned p i (s.processes i))
    (ht : Owned p i (t.processes i))
    (hgen : (s.processes i).runGeneration ≤ (t.processes i).runGeneration)
    (hcr3 : t.baselineCr3 = s.baselineCr3) (hrsp0 : t.baselineRsp0 = s.baselineRsp0)
    (h : processEventFieldsValid p s e i = true) : processEventFieldsValid p t e i = true := by
  have hkind : processEventKindValid t e (t.processes i) =
      processEventKindValid s e (s.processes i) := by
    unfold processEventKindValid processEventFrameValid
    rw [hs.pid, ht.pid, hs.stackTop, ht.stackTop, hs.spaceCr3, ht.spaceCr3, hcr3, hrsp0]
  unfold processEventFieldsValid at h ⊢
  dsimp only at h ⊢
  rw [hs.descriptorValid, hs.slot] at h
  rw [ht.descriptorValid, ht.slot, hkind]
  grind

/-! ## The invariant -/

/-- Entry `k` of the journal is one that `bootstrap_process_get_event` accepts. -/
structure Committed (p : Platform) (s : State) (k : Nat) : Prop where
  valid : (s.events k).valid = true
  sequence : (s.events k).eventSequence = k + 1
  fields : ∃ i : Slot, (s.events k).slot = i ∧ processEventFieldsValid p s (s.events k) i = true

/-- The entries of the journal are in order, pass the validator, and form the groups. -/
structure JournalInv (p : Platform) (s : State) (groups : List Group) : Prop where
  initialized : s.initialized = true
  owned : ∀ i, Owned p i (s.processes i)
  sequence : s.eventSequence = s.eventCount
  committed : ∀ k < s.eventCount, Committed p s k
  tags : s.journal.map tag = groups.flatMap Group.tags

/-- The descriptors and the current process agree with the groups: a process is active when it
is the current one, a prepared one has no evidence yet, and all groups are closed but that of
the current process. -/
structure OwnerInv (s : State) (groups : List Group) : Prop where
  owner : ∀ i, (s.processes i).active = true ↔ s.current = some i
  fresh : ∀ i, (s.processes i).prepared = true → (s.processes i).active = false →
    (s.processes i).trapSnapshot.evidenceValid = false
  oneOpen : OneOpen s groups

/-! ## Changes that leave the groups alone -/

/-- What the invariant needs of a process besides its owner: everything but the run state and
the contents of the trap snapshot is the same. -/
structure SameProcess (q q' : BootstrapProcess) : Prop where
  rest : q' = { q with runState := q'.runState, trapSnapshot := q'.trapSnapshot }
  evidence : q'.trapSnapshot.evidenceValid = q.trapSnapshot.evidenceValid

/-- Nothing that the journal depends on has changed. -/
structure Quiet (s s' : State) : Prop where
  processes : ∀ i, SameProcess (s.processes i) (s'.processes i)
  current : s'.current = s.current
  events : s'.events = s.events
  eventCount : s'.eventCount = s.eventCount
  eventSequence : s'.eventSequence = s.eventSequence
  baselineCr3 : s'.baselineCr3 = s.baselineCr3
  baselineRsp0 : s'.baselineRsp0 = s.baselineRsp0
  initialized : s'.initialized = s.initialized

theorem SameProcess.refl (q : BootstrapProcess) : SameProcess q q := ⟨rfl, rfl⟩

namespace SameProcess

variable {q q' : BootstrapProcess} (h : SameProcess q q')
include h

theorem prepared : q'.prepared = q.prepared := by rw [h.rest]

theorem active : q'.active = q.active := by rw [h.rest]

theorem runGeneration : q'.runGeneration = q.runGeneration := by rw [h.rest]

theorem owned (ho : Owned p i q) : Owned p i q' := by
  rw [h.rest]
  exact ho.congr rfl

theorem trans {q'' : BootstrapProcess} (h' : SameProcess q' q'') : SameProcess q q'' := by
  refine ⟨?_, h'.evidence.trans h.evidence⟩
  have h₂ := h'.rest
  rw [h.rest] at h₂
  exact h₂

end SameProcess

theorem Quiet.refl (s : State) : Quiet s s :=
  ⟨fun _ => .refl _, rfl, rfl, rfl, rfl, rfl, rfl, rfl⟩

theorem Quiet.trans {s t u : State} (h₁ : Quiet s t) (h₂ : Quiet t u) : Quiet s u :=
  ⟨fun i => (h₁.processes i).trans (h₂.processes i), h₂.current.trans h₁.current,
    h₂.events.trans h₁.events, h₂.eventCount.trans h₁.eventCount,
    h₂.eventSequence.trans h₁.eventSequence, h₂.baselineCr3.trans h₁.baselineCr3,
    h₂.baselineRsp0.trans h₁.baselineRsp0, h₂.initialized.trans h₁.initialized⟩

@[simp] theorem setProcess_self : (s.setProcess i q).processes i = q := Function.update_self _ _ _

theorem setProcess_forall (P : Slot → BootstrapProcess → Prop) (hi : P i q)
    (hj : ∀ j, j ≠ i → P j (s.processes j)) (j : Slot) : P j ((s.setProcess i q).processes j) :=
  (Function.forall_update_iff s.processes P).mpr ⟨hi, hj⟩ j

theorem Quiet.of_setProcess (h : SameProcess (s.processes i) q) : Quiet s (s.setProcess i q) :=
  ⟨setProcess_forall (fun j q => SameProcess (s.processes j) q) h fun _ _ => .refl _,
    rfl, rfl, rfl, rfl, rfl, rfl, rfl⟩

/-! The journal's own part of the invariant survives any change of the descriptors that keeps
them owned and lets no generation shrink. -/

/-- The entries of the journal are the same, and what they are checked against is no
stricter. -/
structure Kept (p : Platform) (s s' : State) : Prop where
  owned : ∀ i, Owned p i (s'.processes i)
  generation : ∀ i, (s.processes i).runGeneration ≤ (s'.processes i).runGeneration
  events : s'.events = s.events
  eventCount : s'.eventCount = s.eventCount
  eventSequence : s'.eventSequence = s.eventSequence
  baselineCr3 : s'.baselineCr3 = s.baselineCr3
  baselineRsp0 : s'.baselineRsp0 = s.baselineRsp0
  initialized : s'.initialized = s.initialized

theorem Quiet.kept (h : Quiet s s') (ho : ∀ i, Owned p i (s.processes i)) : Kept p s s' :=
  { h with
    owned := fun i => (h.processes i).owned (ho i)
    generation := fun i => (h.processes i).runGeneration.ge }

theorem Kept.of_process (ho : ∀ j, Owned p j (s.processes j)) (hq : Owned p i q)
    (hgen : (s.processes i).runGeneration ≤ q.runGeneration)
    (hp : s'.processes = (s.setProcess i q).processes) (he : s'.events = s.events)
    (hn : s'.eventCount = s.eventCount) (hs : s'.eventSequence = s.eventSequence)
    (hb : s'.baselineCr3 = s.baselineCr3) (hr : s'.baselineRsp0 = s.baselineRsp0)
    (hi : s'.initialized = s.initialized) : Kept p s s' := by
  refine ⟨fun j => ?_, fun j => ?_, he, hn, hs, hb, hr, hi⟩
  · rw [hp]
    exact setProcess_forall (Owned p) hq (fun j _ => ho j) j
  · rw [hp]
    exact setProcess_forall (fun j q => (s.processes j).runGeneration ≤ q.runGeneration) hgen
      (fun _ _ => le_rfl) j

theorem Kept.journal (h : Kept p s s') : s'.journal = s.journal := by
  unfold State.journal
  rw [h.events, h.eventCount]

theorem Kept.grows (h : Kept p s s') : s.journal <+: s'.journal := h.journal ▸ List.prefix_rfl

theorem Kept.committed (h : Kept p s s') (ho : ∀ i, Owned p i (s.processes i)) {k : Nat}
    (hk : Committed p s k) : Committed p s' k := by
  obtain ⟨i, hslot, hfields⟩ := hk.fields
  constructor
  · rw [h.events]
    exact hk.valid
  · rw [h.events]
    exact hk.sequence
  · rw [h.events]
    exact ⟨i, hslot, processEventFieldsValid_mono (ho i) (h.owned i) (h.generation i)
      h.baselineCr3 h.baselineRsp0 hfields⟩

theorem JournalInv.kept (h : JournalInv p s groups) (hk : Kept p s s') :
    JournalInv p s' groups where
  initialized := hk.initialized.trans h.initialized
  owned := hk.owned
  sequence := by rw [hk.eventSequence, hk.eventCount, h.sequence]
  committed k hlt := hk.committed h.owned (h.committed k (hk.eventCount ▸ hlt))
  tags := by rw [hk.journal, h.tags]

theorem JournalInv.quiet (h : JournalInv p s groups) (hq : Quiet s s') : JournalInv p s' groups :=
  h.kept (hq.kept h.owned)

theorem OwnerInv.quiet (h : OwnerInv s groups) (hq : Quiet s s') : OwnerInv s' groups := by
  refine ⟨fun i => ?_, fun i => ?_, ?_⟩
  · rw [(hq.processes i).active, hq.current]
    exact h.owner i
  · rw [(hq.processes i).active, (hq.processes i).prepared, (hq.processes i).evidence]
    exact h.fresh i
  · have hopen := h.oneOpen
    unfold OneOpen at hopen ⊢
    rw [hq.current]
    cases hc : s.current with
    | none => simpa only [hc] using hopen
    | some i =>
      simp only [hc] at hopen ⊢
      rw [(hq.processes i).runGeneration, (hq.processes i).evidence]
      exact hopen

/-! ## Appending -/

theorem appendEvent_events_of_lt (e : ProcessEvent) {k : Nat} (hk : k < s.eventCount) :
    (appendEvent e s).events k = s.events k :=
  Function.update_of_ne hk.ne _ _

theorem appendEvent_events_last (e : ProcessEvent) (s : State) :
    (appendEvent e s).events s.eventCount = commit e (s.eventSequence + 1) :=
  Function.update_self _ _ _

theorem appendEvent_journal :
    (appendEvent e s).journal = s.journal ++ [commit e (s.eventSequence + 1)] := by
  show (List.range (s.eventCount + 1)).map (appendEvent e s).events = _
  rw [List.range_succ, List.map_append, List.map_singleton, appendEvent_events_last]
  refine congrArg (· ++ _) (List.map_congr_left fun k hk => ?_)
  exact appendEvent_events_of_lt e (List.mem_range.mp hk)

/-- An append is refused with nothing changed but the count of refusals, or it writes an event
that the validator accepted. -/
theorem processEventAppend_cases (p : Platform) (e : ProcessEvent) (i : Slot) (s : State) :
    (processEventAppend p e i s).1 ≠ .ok ∧ Quiet s (processEventAppend p e i s).2 ∨
      processEventAppend p e i s = (.ok, appendEvent e s) ∧
        processEventFieldsValid p s e i = true := by
  have hquiet (dropped : Nat) (overflow : Bool) :
      Quiet s { s with eventDropped := dropped, eventOverflow := overflow } :=
    ⟨fun _ => .refl _, rfl, rfl, rfl, rfl, rfl, rfl, rfl⟩
  unfold processEventAppend
  split
  · exact .inl ⟨AiosStatus.noConfusion, hquiet _ s.eventOverflow⟩
  · rename_i hvalid
    split
    · exact .inl ⟨AiosStatus.noConfusion, hquiet _ true⟩
    · dsimp only
      split
      · exact .inl ⟨AiosStatus.noConfusion, hquiet _ s.eventOverflow⟩
      · simp only [Bool.or_eq_true, Bool.not_eq_true', not_or, Bool.not_eq_false] at hvalid
        exact .inr ⟨rfl, hvalid.2⟩

theorem slot_of_fieldsValid (ho : Owned p i (s.processes i))
    (h : processEventFieldsValid p s e i = true) : e.slot = i := by
  unfold processEventFieldsValid at h
  simp only [Bool.and_eq_true, beq_iff_eq] at h
  rw [← ho.slot]
  exact h.1.1.1.1.1.1.1.1.1.1.2

theorem JournalInv.append {groups groups' : List Group} (h : JournalInv p s groups)
    (hv : processEventFieldsValid p s e i = true)
    (htags : groups'.flatMap Group.tags = groups.flatMap Group.tags ++ [tag e]) :
    JournalInv p (appendEvent e s) groups' where
  initialized := h.initialized
  owned := h.owned
  sequence := congrArg (· + 1) h.sequence
  committed := by
    intro k hk
    rcases Nat.lt_succ_iff_lt_or_eq.mp hk with hlt | rfl
    · have hold := appendEvent_events_of_lt e hlt
      obtain ⟨hvalid, hseq, hfields⟩ := h.committed k hlt
      refine ⟨?_, ?_, ?_⟩
      · rw [hold]
        exact hvalid
      · rw [hold]
        exact hseq
      · rw [hold]
        exact hfields
    · have hnew := appendEvent_events_last e s
      refine ⟨?_, ?_, i, ?_, ?_⟩
      · rw [hnew]
        rfl
      · rw [hnew]
        exact congrArg (· + 1) h.sequence
      · rw [hnew]
        exact slot_of_fieldsValid (h.owned i) hv
      · rw [hnew]
        exact hv
  tags := by
    rw [appendEvent_journal, List.map_append, h.tags, htags]
    rfl

end AiosKernel.Process
