/-
# `AiosKernel.Resource.Runs` — the ledger along runs of the kernel

The calls of the heap, the tensor manager, the fabric, the rings, the scheduler
and the ledger come in any order.  Each subsystem keeps its own bound
(`Bounded`), whatever the others do, and with them the validator accepts every
snapshot that is read.

The bound of the scheduler needs more than its discipline: a task that was
created but not submitted may not be suspended, destroyed or given a priority.
Suspending it makes the size of a queue wrap, and the ledger reports four billion
tasks that can run.
-/
import AiosKernel.Heap.Runs
import AiosKernel.TensorMm.Stats
import AiosKernel.Resource.Model

namespace AiosKernel.Resource

open Heap (HeapPool HeapState kmalloc kfree heapInit)
open TensorMm (MmState Layout Exact RunInv tensorMmInit setPinned)
open MemoryFabric (MEMORY_FABRIC_MAX_WINDOWS Window domainOpen)
open Syscall (AI_INFER_RING_CAPACITY RingRegistration RingAccess sysInferRingSetup sysInferRingNotify
  aiInferRingRuntime sysInferRingSetup_length sysInferRingNotify_length registeredRings_le)
open Sched (SchedState QueueSnapshot Call Event Reply Fresh exec aiSchedInit aiSchedQueueSnapshot
  MAX_AI_TASKS MAX_TASKS SCHED_POLICY_COUNT)
open Word

/-! ## Runs -/

/-- A kernel, with what its callers know: the pointers `kmalloc` returned and nobody freed, the
calls of the scheduler with their replies, and the samples since the ledger was initialised. -/
structure Run where
  kernel : Kernel
  owned : List Nat
  history : List Event
  samples : Nat

inductive Step (clk : Nat → Nat) (ok : SchedState → List Event → Call → Prop) : Run → Run → Prop where
  | kmalloc {r : Run} {fuel size : Nat} {p : Option Nat} {heap' : HeapState} :
      kmalloc fuel size r.kernel.heap = .done (p, heap') →
      Step clk ok r
        { r with kernel := { r.kernel with heap := heap' }, owned := p.toList ++ r.owned }
  | kfree {r : Run} {p : Nat} {heap' : HeapState} :
      p ∈ r.owned → kfree (some p) r.kernel.heap = .done heap' →
      Step clk ok r { r with kernel := { r.kernel with heap := heap' }, owned := r.owned.erase p }
  | kfreeNull {r : Run} {heap' : HeapState} :
      Heap.kfree none r.kernel.heap = .done heap' →
      Step clk ok r { r with kernel := { r.kernel with heap := heap' } }
  | tensor {r : Run} {mm' : MmState} :
      TensorMm.Step r.kernel.fabric.mm mm' →
      Step clk ok r
        { r with kernel := { r.kernel with fabric := { r.kernel.fabric with mm := mm' } } }
  | pin {r : Run} (pinned : Bool) (id : Nat) :
      Step clk ok r
        { r with kernel := { r.kernel with
          fabric := { r.kernel.fabric with mm := (setPinned pinned id r.kernel.fabric.mm).2 } } }
  | fabric {r : Run} {a : MemoryFabric.Action} {fabric' : MemoryFabric.Sys} :
      MemoryFabric.Step r.kernel.fabric a fabric' →
      Step clk ok r { r with kernel := { r.kernel with fabric := fabric' } }
  | domainOpen {r : Run} (now : Nat) :
      Step clk ok r
        { r with kernel := { r.kernel with
          fabric := { r.kernel.fabric with
            fabric := (domainOpen now r.kernel.fabric.fabric).2 } } }
  | ringSetup {r : Run} (u : RingAccess) (hasRingIdOut : Bool) (registration : RingRegistration) :
      Step clk ok r
        { r with kernel := { r.kernel with
          rings := (sysInferRingSetup u hasRingIdOut registration r.kernel.rings).2 } }
  | ringNotify {r : Run} (request : AiosStatus) (ringId submitTail now : Nat) :
      Step clk ok r
        { r with kernel := { r.kernel with
          rings := (sysInferRingNotify request ringId submitTail now r.kernel.rings).2 } }
  | sched {r : Run} {c : Call} {reply : Reply} {fuel : Nat} {sched' : SchedState} :
      ok r.kernel.sched r.history c → exec clk c r.kernel.sched fuel = .done (reply, sched') →
      Step clk ok r
        { r with kernel := { r.kernel with sched := sched' }, history := (c, reply) :: r.history }
  | init {r : Run} (now : Nat) :
      Step clk ok r { r with kernel := (aiResourceInit now r.kernel).2, samples := 1 }
  | read {r : Run} (hasOut : Bool) (now : Nat) :
      Step clk ok r
        { r with
          kernel := (aiResourceRead hasOut now r.kernel).2
          samples := r.samples + (aiResourceRead hasOut now r.kernel).1.2.toList.length }

/-- The kernel once its subsystems are initialised, with any domains and no ledger yet. -/
inductive Booted (pool : HeapPool) (l : Layout) : Run → Prop where
  | intro {heap₀ : HeapState} {mm₀ mm : MmState} {domains : List MemoryFabric.Domain}
      {sched₀ : SchedState} :
      TensorMm.Boot mm₀ → tensorMmInit l mm₀ = .done (.ok, mm) → Sched.Boot sched₀ →
      Booted pool l
        { kernel :=
            { heap := heapInit pool heap₀
              fabric := ⟨mm, ⟨domains, [], 1⟩, []⟩
              rings := []
              sched := (aiSchedInit sched₀).2
              resourceReady := false
              sampleSequence := 0 }
          owned := []
          history := []
          samples := 0 }

/-- The runs whose calls of the scheduler meet `ok`. -/
inductive Reach (pool : HeapPool) (l : Layout) (clk : Nat → Nat)
    (ok : SchedState → List Event → Call → Prop) : Run → Prop where
  | boot {r : Run} : Booted pool l r → Reach pool l clk ok r
  | step {r r' : Run} : Reach pool l clk ok r → Step clk ok r r' → Reach pool l clk ok r'

/-- The discipline of the kernel: policies in range, and a task is submitted right after it was
created, or when it is suspended. -/
def Discipline (s : SchedState) (h : List Event) : Call → Prop
  | .create _ _ params _ => ∀ p, params = some p → p.policy < SCHED_POLICY_COUNT
  | .submit id => Fresh id h ∨ ∃ i, s.findTask id = some i ∧ (s.taskPool i).state = .suspended
  | _ => True

/-! ## What every call keeps -/

theorem step_of_tensorRef {s s' : MmState} {id : Nat} {st : AiosStatus}
    (hcall : TensorMm.tensorRef id s = (st, s')) : TensorMm.Step s s' := by
  have hstep := @TensorMm.Step.ref s id
  rwa [hcall] at hstep

theorem fabric_manager {s s' : MemoryFabric.Sys} {a : MemoryFabric.Action}
    (h : MemoryFabric.Step s a s') : s'.mm = s.mm ∨ TensorMm.Step s.mm s'.mm := by
  cases h with
  | alloc hq hcall => exact .inr (.alloc hq hcall)
  | free hcall => exact .inr (.free hcall)
  | ref id => exact .inr (.ref id)
  | unref hcall | drop _ hcall => exact .inr (.unref hcall)
  | modelFree hcall => exact .inr (.modelFree hcall)
  | shareRef _ hcall | shareFail _ hcall _ => exact .inr (step_of_tensorRef hcall)
  | shareInfo _ _ | shareEnter _ _ | shareRefuse _ _ _ | attach _ _ _ _ | release _ =>
    exact .inl rfl

section

variable {pool : HeapPool} {l : Layout} {clk : Nat → Nat}
  {ok : SchedState → List Event → Call → Prop} {r r' : Run}

/-- Each subsystem is where a run of its own would be, whatever the others do. -/
structure Bounded (pool : HeapPool) (clk : Nat → Nat)
    (ok : SchedState → List Event → Call → Prop) (r : Run) : Prop where
  heap : Heap.Reach pool r.kernel.heap r.owned
  mm : RunInv r.kernel.fabric.mm
  exact : Exact r.kernel.fabric.mm
  windows : r.kernel.fabric.fabric.windows.length ≤ MEMORY_FABRIC_MAX_WINDOWS
  rings : r.kernel.rings.length ≤ AI_INFER_RING_CAPACITY
  sched : Sched.Reach clk ok r.kernel.sched r.history
  sequence : r.kernel.resourceReady = true → r.kernel.sampleSequence = u64 r.samples

theorem Booted.bounded (h : Booted pool l r) : Bounded pool clk ok r := by
  cases h with
  | intro hmm hcall hsched =>
    exact ⟨.init _, (TensorMm.Reach.init hmm hcall).invariant, (TensorMm.exact_init hmm hcall).1,
      Nat.zero_le _, Nat.zero_le _, .init hsched, nofun⟩

/-- **Every call keeps the bounds.** -/
theorem Bounded.step (h : Bounded pool clk ok r) (hstep : Step clk ok r r') :
    Bounded pool clk ok r' := by
  cases hstep with
  | kmalloc hcall => exact { h with heap := h.heap.kmalloc hcall }
  | kfree hp hcall => exact { h with heap := h.heap.kfree hp hcall }
  | kfreeNull hcall => exact { h with heap := h.heap.kfreeNull hcall }
  | tensor hcall => exact { h with mm := h.mm.of_step hcall, exact := (h.exact.step h.mm hcall).1 }
  | pin pinned id =>
    obtain ⟨hmm, hexact⟩ := h.exact.setPinned h.mm pinned id
    exact { h with mm := hmm, exact := hexact }
  | fabric hcall =>
    have hwindows := hcall.windows_length h.windows
    rcases fabric_manager hcall with hmm | hmm
    · exact { h with mm := hmm ▸ h.mm, exact := hmm ▸ h.exact, windows := hwindows }
    · exact { h with
        mm := h.mm.of_step hmm, exact := (h.exact.step h.mm hmm).1, windows := hwindows }
  | domainOpen now =>
    refine { h with windows := ?_ }
    have hsame : (domainOpen now r.kernel.fabric.fabric).2.windows =
        r.kernel.fabric.fabric.windows := by
      unfold MemoryFabric.domainOpen
      split <;> rfl
    exact hsame ▸ h.windows
  | ringSetup u hasRingIdOut registration =>
    exact { h with rings := sysInferRingSetup_length h.rings }
  | ringNotify request ringId submitTail now =>
    exact { h with rings := (sysInferRingNotify_length _ _ _ _ _).trans_le h.rings }
  | sched hok hcall => exact { h with sched := h.sched.call hok hcall }
  | init now =>
    obtain ⟨ready, sequence, hk, hone⟩ := aiResourceInit_kernel now r.kernel
    simp only [hk]
    exact { h with sequence := hone }
  | read hasOut now =>
    rcases aiResourceRead_kernel hasOut now r.kernel with ⟨hk, hout⟩ | ⟨hk, snapshot, hout⟩
    · simp only [hk, hout]
      exact h
    · simp only [hk, hout]
      refine { h with sequence := fun hready => ?_ }
      show u64 (r.kernel.sampleSequence + 1) = u64 (r.samples + 1)
      rw [h.sequence hready, u64, u64, u64, Nat.mod_add_mod]

theorem Reach.bounded (h : Reach pool l clk ok r) : Bounded pool clk ok r := by
  induction h with
  | boot hb => exact hb.bounded
  | step _ hstep ih => exact ih.step hstep

/-! ## Every read is accepted -/

theorem activeWindows_le (s : MemoryFabric.State) :
    (memoryFabricPressureRead s).activeWindows ≤ s.windows.length := by
  refine (foldl_le_length (m := id) (fun n w => ?_) s.windows 0).trans_eq (Nat.zero_add _)
  split
  · exact Nat.mod_le _ _
  · exact Nat.le_succ n

theorem careful_of_kernel {s : SchedState} {h : List Event} {c : Call}
    (hfresh : ∀ id, Fresh id h → id ∉ Sched.submitted h)
    (hok : Discipline s h c ∧ Sched.TouchesSubmitted s h c) : Sched.Careful s h c := by
  obtain ⟨hd, ht⟩ := hok
  refine ⟨?_, ?_, ht⟩
  · cases c with
    | create name workload params hasOut => exact hd
    | _ => trivial
  · cases c with
    | submit id => exact Sched.submitsIdle_of hfresh hd
    | _ => trivial

theorem Bounded.within (h : Bounded pool clk ok r)
    (hok : ∀ s h c, (∀ id, Fresh id h → id ∉ Sched.submitted h) → ok s h c → Sched.Careful s h c) :
    ∃ q, aiSchedQueueSnapshot r.kernel.sched = (.ok, some q) ∧ (r.kernel.sources q).Within := by
  obtain ⟨⟨Q, hinv⟩, -⟩ := h.sched.inv hok
  obtain ⟨q, hq, hrunnable⟩ := hinv.queueSnapshot h.sched.schedReady
  refine ⟨q, hq, h.heap.used_le_total, h.exact.ledger.used_le_peak, ?_,
    (activeWindows_le _).trans h.windows, (registeredRings_le _).trans h.rings, ?_⟩
  · exact h.exact.ledger.peak_le.trans_eq h.exact.ledger.total.symm
  · exact hrunnable.trans_le hinv.runnable_length

/-- In every run whose calls of the scheduler keep to the discipline and touch no unsubmitted task,
every read of a ledger that is ready returns a snapshot that the validator accepts, and the five
sources are within their limits. -/
theorem ledger_reads_valid
    (h : Reach pool l clk (fun s h c => Discipline s h c ∧ Sched.TouchesSubmitted s h c) r)
    (hready : r.kernel.resourceReady = true) {now : Nat} (hpos : 0 < now) (hnow : now < 2 ^ 64)
    (hsamples : r.samples + 1 < 2 ^ 64) :
    ∃ q snapshot, aiSchedQueueSnapshot r.kernel.sched = (.ok, some q) ∧
      (aiResourceRead true now r.kernel).1 = (.ok, some snapshot) ∧
      aiResourceSnapshotValid snapshot = true ∧
      r.kernel.heap.stats.used ≤ r.kernel.heap.stats.total ∧
      r.kernel.fabric.mm.globalStats.usedMemory ≤ r.kernel.fabric.mm.globalStats.peakUsage ∧
      r.kernel.fabric.mm.globalStats.peakUsage ≤ r.kernel.fabric.mm.globalStats.totalMemory ∧
      (memoryFabricPressureRead r.kernel.fabric.fabric).activeWindows ≤ 64 ∧
      (aiInferRingRuntime r.kernel.rings).registeredRings ≤ 16 ∧
      q.runnableTasks ≤ MAX_AI_TASKS := by
  have hb := h.bounded
  obtain ⟨q, hq, hwithin⟩ := hb.within fun _ _ _ hf hc => careful_of_kernel hf hc
  have hread := @aiResourceRead_ready r.kernel q now hready hq
  have hsequence : u64 (r.kernel.sampleSequence + 1) = r.samples + 1 := by
    rw [hb.sequence hready, u64_eq (Nat.lt_of_succ_lt hsamples), u64_eq hsamples]
  rw [hsequence, u64_eq hnow] at hread
  refine ⟨q, _, hq, congrArg Prod.fst hread, ?_, hwithin.heap, hwithin.tensorUsed, hwithin.tensorPeak,
    hwithin.windows, hwithin.rings, hwithin.runnable⟩
  exact (valid_build_iff _ _ _).mpr ⟨hwithin, Nat.pos_iff_ne_zero.mp hpos, Nat.succ_ne_zero _⟩

end

/-! ## Runs on a fixed clock -/

/-- The initialisation of the ledger succeeds right after the boot. -/
theorem exists_ready (ok : SchedState → List Event → Call → Prop) : ∃ r,
    Reach Heap.bootPool TensorMm.imageLayout Sched.stillClock ok r ∧
      r.kernel.resourceReady = true ∧ r.samples = 1 ∧ r.kernel.sched = Sched.start ∧
      r.history = [] := by
  obtain ⟨mm, hmm⟩ := TensorMm.exists_init
  have hboot := @Booted.intro Heap.bootPool TensorMm.imageLayout Heap.bootHeap _ mm [] Sched.bootState
    TensorMm.boot_bootState hmm ⟨rfl, rfl⟩
  have hbounded := @Booted.bounded _ _ Sched.stillClock Sched.Careful _ hboot
  obtain ⟨q, hq, hwithin⟩ := hbounded.within fun _ _ _ _ hc => hc
  have hinit := @aiResourceInit_ok _ q 1 hq hwithin (by decide)
    (hbounded.exact.ledger.total ▸ hbounded.mm.poolBytes_succ_lt)
  refine ⟨_, .step (.boot hboot) (.init 1), ?_⟩
  rw [hinit]
  exact ⟨rfl, rfl, rfl, rfl⟩

/-- The scheduler after a task was created and, without having been submitted, suspended. -/
def unsubmittedSuspended : SchedState :=
  Sched.after (.suspend 1) (Sched.after Sched.createInference Sched.start)

theorem Reach.after {pool : HeapPool} {l : Layout} {ok : SchedState → List Event → Call → Prop}
    {r : Run} (h : Reach pool l Sched.stillClock ok r) (c : Call) (reply : Reply)
    (hok : ok r.kernel.sched r.history c)
    (hcall : exec Sched.stillClock c r.kernel.sched (MAX_TASKS + 1) =
      .done (reply, Sched.after c r.kernel.sched)) :
    Reach pool l Sched.stillClock ok
      { r with
        kernel := { r.kernel with sched := Sched.after c r.kernel.sched }
        history := (c, reply) :: r.history } :=
  h.step (.sched hok hcall)

/-- A task is created and submitted, and the ledger is read. -/
theorem ledger_reads_valid_queued : ∃ r q snapshot,
    Reach Heap.bootPool TensorMm.imageLayout Sched.stillClock
      (fun s h c => Discipline s h c ∧ Sched.TouchesSubmitted s h c) r ∧
    aiSchedQueueSnapshot r.kernel.sched = (.ok, some q) ∧ q.runnableTasks = 1 ∧
    (aiResourceRead true 1 r.kernel).1 = (.ok, some snapshot) ∧
    aiResourceSnapshotValid snapshot = true := by
  obtain ⟨r, hreach, hready, hsamples, hsched, -⟩ :=
    exists_ready fun s h c => Discipline s h c ∧ Sched.TouchesSubmitted s h c
  have hcreate := hreach.after Sched.createInference (.created .ok (some 1))
    ⟨Sched.policyInRange_createInference, trivial⟩ (by rw [hsched]; rfl)
  rw [hsched] at hcreate
  have hsubmit := hcreate.after (.submit 1) (.status .ok) ⟨.inl (.inl rfl), trivial⟩ rfl
  obtain ⟨q, snapshot, hq, hread, hvalid, -⟩ := ledger_reads_valid hsubmit hready Nat.one_pos
    (by decide) (by rw [hsamples]; decide)
  obtain ⟨q', hq', hone⟩ : ∃ q', aiSchedQueueSnapshot (Sched.after (.submit 1) (Sched.after
      Sched.createInference Sched.start)) = (.ok, some q') ∧ q'.runnableTasks = 1 :=
    ⟨_, rfl, by decide⟩
  cases hq'.symm.trans hq
  exact ⟨_, q, snapshot, hsubmit, hq, hone, hread, hvalid⟩

/-- The discipline alone does not keep the ledger valid: a queue of size −1 is counted as
4294967295 tasks. -/
theorem suspend_unsubmitted_fails_ledger : ∃ r,
    Reach Heap.bootPool TensorMm.imageLayout Sched.stillClock Discipline r ∧
      r.kernel.resourceReady = true ∧ r.samples + 1 < 2 ^ 64 ∧
      ∃ q snapshot, aiSchedQueueSnapshot r.kernel.sched = (.ok, some q) ∧
        q.runnableTasks = 2 ^ 32 - 1 ∧
        (aiResourceRead true 1 r.kernel).1 = (.ok, some snapshot) ∧
        aiResourceSnapshotValid snapshot = false := by
  obtain ⟨r, hreach, hready, hsamples, hsched, -⟩ := exists_ready Discipline
  have hcreate := hreach.after Sched.createInference (.created .ok (some 1))
    Sched.policyInRange_createInference (by rw [hsched]; rfl)
  rw [hsched] at hcreate
  have hsuspend := hcreate.after (.suspend 1) (.status .ok) trivial rfl
  obtain ⟨q, hq, hrunnable⟩ : ∃ q, aiSchedQueueSnapshot unsubmittedSuspended = (.ok, some q) ∧
      q.runnableTasks = 2 ^ 32 - 1 := ⟨_, rfl, by decide⟩
  have hread := @aiResourceRead_ready { r.kernel with sched := unsubmittedSuspended } q 1 hready hq
  refine ⟨_, hsuspend, hready, ?_, q, _, hq, hrunnable, congrArg Prod.fst hread, ?_⟩
  · rw [hsamples]
    decide
  · rw [Bool.eq_false_iff, Ne, valid_build_iff]
    rintro ⟨hwithin, -⟩
    have hle : q.runnableTasks ≤ MAX_AI_TASKS := hwithin.runnable
    rw [hrunnable] at hle
    exact absurd hle (by decide)

end AiosKernel.Resource
