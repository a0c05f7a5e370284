/-
# `AiosKernel.TensorMm.Stats` — the statistics are exact along every run

All that `mem_stats_t` counts is a function of the sizes and lifetimes of the
live tensors, the lines of a `Ledger`.  An allocation enters a line
(`Ledger.enter`), a release strikes one (`Ledger.strike`), and a change of a
reference count touches none.  No counter wraps: the bytes are bounded by the
managed ones, and every release has used up a descriptor.

The peak is the one counter that remembers, so runs are taken with all their
states here (`Trace`).
-/
import AiosKernel.TensorMm.Runs
import Mathlib.Algebra.Order.BigOperators.Group.List

namespace AiosKernel.TensorMm

open Word DList Tiling List

/-! ## The ledger -/

/-- What the statistics know of a tensor: its size and its lifetime. -/
def TensorAlloc.line (t : TensorAlloc) : Nat × MemLifetime := (t.size, t.lifetime)

def sumLines (ls : List (Nat × MemLifetime)) : Nat := (ls.map Prod.fst).sum

def sumLifetime (ls : List (Nat × MemLifetime)) (k : MemLifetime) : Nat :=
  sumLines (ls.filter fun x => x.2 = k)

def MemLifetime.kinds : List MemLifetime := [.shortTerm, .longTerm, .realtime, .random]

def MemStats.lifetimeMemory (st : MemStats) : MemLifetime → Nat
  | .shortTerm => st.shortTermMemory
  | .longTerm => st.longTermMemory
  | .realtime => st.realtimeMemory
  | .random => st.randomMemory
  | .other _ => 0

/-- The statistics `st` account for `managed` bytes of which the lines `ls` are in use. -/
structure Ledger (managed : Nat) (st : MemStats) (ls : List (Nat × MemLifetime)) : Prop where
  total : st.totalMemory = managed
  used : st.usedMemory = sumLines ls
  free : st.freeMemory + sumLines ls = managed
  tensors : st.tensorCount = ls.length
  allocs : st.allocCount = st.freeCount + ls.length
  lifetimes : ∀ k ∈ MemLifetime.kinds, st.lifetimeMemory k = sumLifetime ls k
  used_le_peak : st.usedMemory ≤ st.peakUsage
  peak_le : st.peakUsage ≤ managed

section

variable (st : MemStats) (k : MemLifetime) (f : Nat → Nat)

@[simp] theorem profile_totalMemory : (st.profile k f).totalMemory = st.totalMemory := by
  cases k <;> rfl

@[simp] theorem profile_usedMemory : (st.profile k f).usedMemory = st.usedMemory := by
  cases k <;> rfl

@[simp] theorem profile_freeMemory : (st.profile k f).freeMemory = st.freeMemory := by
  cases k <;> rfl

@[simp] theorem profile_tensorCount : (st.profile k f).tensorCount = st.tensorCount := by
  cases k <;> rfl

@[simp] theorem profile_allocCount : (st.profile k f).allocCount = st.allocCount := by
  cases k <;> rfl

@[simp] theorem profile_freeCount : (st.profile k f).freeCount = st.freeCount := by
  cases k <;> rfl

@[simp] theorem profile_peakUsage : (st.profile k f).peakUsage = st.peakUsage := by
  cases k <;> rfl

theorem profile_lifetimeMemory {j : MemLifetime} (hj : j ∈ MemLifetime.kinds) :
    (st.profile k f).lifetimeMemory j =
      if k = j then f (st.lifetimeMemory j) else st.lifetimeMemory j := by
  simp only [MemLifetime.kinds, mem_cons, not_mem_nil, or_false] at hj
  rcases hj with rfl | rfl | rfl | rfl <;> cases k <;> rfl

end

section

variable {managed : Nat} {st : MemStats} {ls rs : List (Nat × MemLifetime)} {t : TensorAlloc}

theorem sumLines_cons (x : Nat × MemLifetime) : sumLines (x :: ls) = x.1 + sumLines ls := rfl

theorem sumLifetime_cons (x : Nat × MemLifetime) (k : MemLifetime) :
    sumLifetime (x :: ls) k = (if x.2 = k then x.1 else 0) + sumLifetime ls k := by
  by_cases hk : x.2 = k
  · simp [sumLifetime, sumLines, hk]
  · simp [sumLifetime, sumLines, hk]

theorem sumLifetime_le (ls : List (Nat × MemLifetime)) (k : MemLifetime) :
    sumLifetime ls k ≤ sumLines ls := by
  induction ls with
  | nil => exact le_rfl
  | cons x ls ih =>
    rw [sumLifetime_cons, sumLines_cons]
    split
    · omega
    · omega

theorem Ledger.perm (h : Ledger managed st ls) (hp : ls.Perm rs) : Ledger managed st rs := by
  have hsum : ∀ {xs ys : List (Nat × MemLifetime)}, xs.Perm ys → sumLines xs = sumLines ys :=
    fun hxy => (hxy.map _).sum_eq
  have hlen := hp.length_eq
  refine { h with used := ?_, free := ?_, tensors := ?_, allocs := ?_, lifetimes := ?_ }
  · rw [h.used, hsum hp]
  · rw [← hsum hp]
    exact h.free
  · rw [h.tensors, hlen]
  · rw [h.allocs, hlen]
  · intro k hk
    rw [h.lifetimes k hk]
    exact hsum (hp.filter _)

theorem statsAfterAlloc_lifetimeMemory {k : MemLifetime} (hk : k ∈ MemLifetime.kinds) :
    (statsAfterAlloc t st).lifetimeMemory k = if t.lifetime = k then
      u64 (st.lifetimeMemory k + t.size) else st.lifetimeMemory k := by
  have hsame : (statsAfterAlloc t st).lifetimeMemory k =
      (st.profile t.lifetime fun n => u64 (n + t.size)).lifetimeMemory k := by
    cases hl : t.lifetime <;> cases k <;>
      simp [statsAfterAlloc, statsAddAllocationProfile, MemStats.profile, hl,
        MemStats.lifetimeMemory]
  rw [hsame, profile_lifetimeMemory st t.lifetime _ hk]

theorem statsAfterFree_lifetimeMemory {k : MemLifetime} (hk : k ∈ MemLifetime.kinds) :
    (statsAfterFree t st).lifetimeMemory k = if t.lifetime = k then
      sub64 (st.lifetimeMemory k) t.size else st.lifetimeMemory k := by
  have hsame : (statsAfterFree t st).lifetimeMemory k =
      (st.profile t.lifetime fun n => sub64 n t.size).lifetimeMemory k := by
    cases hl : t.lifetime <;> cases k <;>
      simp [statsAfterFree, statsRemoveAllocationProfile, MemStats.profile, hl,
        MemStats.lifetimeMemory]
  rw [hsame, profile_lifetimeMemory st t.lifetime _ hk]

theorem Ledger.enter (h : Ledger managed st ls) (hlt : managed < 2 ^ 64)
    (hroom : t.size + sumLines ls ≤ managed) (hallocs : st.allocCount + 1 < 2 ^ 64) :
    Ledger managed (statsAfterAlloc t st) (t.line :: ls) := by
  obtain ⟨htotal, hused, hfree, htensors, hcount, hlife, hpeak, hle⟩ := h
  have hused' : u64 (st.usedMemory + t.size) = t.size + sumLines ls := by
    rw [u64_eq (by omega), hused, Nat.add_comm]
  refine ⟨?_, ?_, ?_, ?_, ?_, ?_, ?_, ?_⟩
  · simpa [statsAfterAlloc, statsAddAllocationProfile] using htotal
  · show (statsAfterAlloc t st).usedMemory = t.size + sumLines ls
    simpa [statsAfterAlloc, statsAddAllocationProfile] using hused'
  · show (statsAfterAlloc t st).freeMemory + (t.size + sumLines ls) = managed
    simp only [statsAfterAlloc, statsAddAllocationProfile, profile_freeMemory]
    rw [sub64_eq (by omega) (by omega)]
    omega
  · simp only [statsAfterAlloc, statsAddAllocationProfile, profile_tensorCount, length_cons]
    rw [u64_eq (by omega), htensors]
  · simp only [statsAfterAlloc, statsAddAllocationProfile, profile_allocCount, profile_freeCount,
      length_cons]
    rw [u64_eq hallocs, hcount]
    rfl
  · intro k hk
    have hbound := sumLifetime_le ls k
    rw [statsAfterAlloc_lifetimeMemory hk, hlife k hk, sumLifetime_cons]
    show (if t.lifetime = k then u64 (sumLifetime ls k + t.size) else sumLifetime ls k) =
      (if t.lifetime = k then t.size else 0) + sumLifetime ls k
    by_cases hl : t.lifetime = k
    · rw [if_pos hl, if_pos hl, u64_eq (by omega), Nat.add_comm]
    · rw [if_neg hl, if_neg hl, Nat.zero_add]
  · simp only [statsAfterAlloc, statsAddAllocationProfile, profile_usedMemory, profile_peakUsage]
    split
    · exact le_rfl
    · omega
  · simp only [statsAfterAlloc, statsAddAllocationProfile, profile_usedMemory, profile_peakUsage]
    split
    · omega
    · exact hle

theorem Ledger.strike (h : Ledger managed st (t.line :: ls)) (hlt : managed < 2 ^ 64)
    (hfrees : st.freeCount + ls.length + 1 < 2 ^ 64) :
    Ledger managed (statsAfterFree t st) ls ∧ (statsAfterFree t st).peakUsage = st.peakUsage ∧
      (statsAfterFree t st).freeCount = st.freeCount + 1 := by
  obtain ⟨htotal, hused, hfree, htensors, hcount, hlife, hpeak, hle⟩ := h
  have hsum : sumLines (t.line :: ls) = t.size + sumLines ls := rfl
  rw [hsum] at hused hfree
  rw [length_cons] at htensors hcount
  have hused' : (statsAfterFree t st).usedMemory = sumLines ls := by
    simp only [statsAfterFree, statsRemoveAllocationProfile, profile_usedMemory]
    rw [sub64_eq (by omega) (by omega), hused, Nat.add_sub_cancel_left]
  have hpeak' : (statsAfterFree t st).peakUsage = st.peakUsage := by
    simp [statsAfterFree, statsRemoveAllocationProfile]
  have hfree' : (statsAfterFree t st).freeCount = st.freeCount + 1 := by
    simp only [statsAfterFree, statsRemoveAllocationProfile, profile_freeCount]
    exact u64_eq (by omega)
  refine ⟨⟨?_, hused', ?_, ?_, ?_, ?_, ?_, ?_⟩, hpeak', hfree'⟩
  · simpa [statsAfterFree, statsRemoveAllocationProfile] using htotal
  · simp only [statsAfterFree, statsRemoveAllocationProfile, profile_freeMemory]
    rw [u64_eq (by omega)]
    omega
  · simp only [statsAfterFree, statsRemoveAllocationProfile, profile_tensorCount]
    rw [sub64_eq (by omega) (by omega), htensors, Nat.add_sub_cancel]
  · rw [hfree']
    simp only [statsAfterFree, statsRemoveAllocationProfile, profile_allocCount]
    omega
  · intro k hk
    have hk' := hlife k hk
    have hbound := sumLifetime_le ls k
    rw [sumLifetime_cons] at hk'
    rw [statsAfterFree_lifetimeMemory hk, hk']
    show (if t.lifetime = k then sub64 ((if t.lifetime = k then t.size else 0) +
      sumLifetime ls k) t.size else (if t.lifetime = k then t.size else 0) + sumLifetime ls k) = _
    by_cases hl : t.lifetime = k
    · rw [if_pos hl, if_pos hl, sub64_eq (by omega) (by omega), Nat.add_sub_cancel_left]
    · rw [if_neg hl, if_neg hl, Nat.zero_add]
  · omega
  · rw [hpeak']
    exact hle

end

/-! ## What the calls do to the lines -/

def lines (s : MmState) : List (Nat × MemLifetime) := (live s).map TensorAlloc.line

section

variable {M : MemRegion → Set Nat} {F : MemRegion → List FreeNode} {s s' : MmState} {i id : Nat}
  {st : AiosStatus} {t : TensorAlloc}

/-- A call that allocates nothing strikes at most one line, and pays for it with a descriptor. -/
inductive Strikes (s s' : MmState) : Prop where
  | none : lines s' = lines s → s'.globalStats = s.globalStats →
      s'.arena.blockPoolNext = s.arena.blockPoolNext → Strikes s s'
  | one (t : TensorAlloc) : (lines s).Perm (t.line :: lines s') →
      s'.globalStats = statsAfterFree t s.globalStats →
      s'.arena.blockPoolNext = s.arena.blockPoolNext + 1 → Strikes s s'

theorem strikes_setTensor (f : TensorAlloc → TensorAlloc) (hf : ∀ t, (f t).line = t.line) :
    Strikes s (s.setTensor i f) :=
  .none (live_setTensor TensorAlloc.line f hf) rfl rfl

theorem tensorFree_strikes (hcall : tensorFree id s = .done (st, s')) : Strikes s s' := by
  cases tensorFree_freed hcall with
  | missing hfind | full i hfind href => exact .none rfl rfl rfl
  | counted i hfind href => exact strikes_setTensor _ fun _ => rfl
  | gone i s' hfind href hp hblocks hnext hstats =>
    exact .one _ (hp.map TensorAlloc.line) hstats hblocks

end

/-! ## Runs -/

noncomputable def poolBytes (s : MmState) : Nat := managedBytes (managed s.poolBase memoryPools)

/-- The statistics are those of the live tensors. -/
structure Exact (s : MmState) : Prop where
  ledger : Ledger (poolBytes s) s.globalStats (lines s)
  frees : s.globalStats.freeCount ≤ s.arena.blockPoolNext

/-- What a call that allocates nothing leaves of the counters that remember. -/
structure Quiet (s s' : MmState) : Prop where
  total : s'.globalStats.totalMemory = s.globalStats.totalMemory
  peak : s'.globalStats.peakUsage = s.globalStats.peakUsage

theorem Quiet.trans {s s₁ s' : MmState} (h : Quiet s s₁) (h' : Quiet s₁ s') : Quiet s s' :=
  ⟨h'.total.trans h.total, h'.peak.trans h.peak⟩

variable {l : Layout} {s s' : MmState} {i id : Nat} {st : AiosStatus}

theorem RunInv.poolBytes_succ_lt (h : RunInv s) : poolBytes s + 1 < 2 ^ 64 := by
  have hregion : ∀ r, Set.ncard (managed s.poolBase memoryPools r) ≤ ADDR_LIMIT := by
    intro r
    have hsub : managed s.poolBase memoryPools r ⊆ ((Finset.range ADDR_LIMIT : Finset Nat) : Set Nat) :=
      fun x hx => by simpa using h.managed_lt r x hx
    have hle := Set.ncard_le_ncard hsub (Finset.finite_toSet _)
    rwa [Set.ncard_coe_finset, Finset.card_range] at hle
  have hsum : poolBytes s ≤ (MemRegion.all.map fun _ => ADDR_LIMIT).sum :=
    sum_le_sum fun r _ => hregion r
  exact (Nat.succ_le_succ hsum).trans_lt (by decide)

theorem RunInv.poolBytes_lt (h : RunInv s) : poolBytes s < 2 ^ 64 :=
  Nat.lt_of_succ_lt h.poolBytes_succ_lt

theorem RunInv.counts (h : RunInv s) :
    (lines s).length ≤ MAX_TENSORS ∧ s.arena.blockPoolNext ≤ MAX_BLOCKS := by
  obtain ⟨F, hinv⟩ := h.inv
  exact ⟨by simpa [lines, live] using hinv.countLe, hinv.represents.cap⟩

section

variable (h : Exact s) (hr : RunInv s)
include h hr

theorem Exact.strikes (hst : Strikes s s') (hr' : RunInv s')
    (hbase : s'.poolBase = s.poolBase) : Exact s' ∧ Quiet s s' := by
  obtain ⟨hledger, hfrees⟩ := h
  have hpool : poolBytes s' = poolBytes s := by rw [poolBytes, poolBytes, hbase]
  cases hst with
  | none hlines hstats hnext =>
    refine ⟨⟨?_, ?_⟩, ?_, ?_⟩
    · rw [hpool, hlines, hstats]
      exact hledger
    · rw [hstats, hnext]
      exact hfrees
    · rw [hstats]
    · rw [hstats]
  | one t hp hstats hnext =>
    have hcap := hr.counts.2
    have hlen := hr'.counts.1
    simp only [MAX_BLOCKS, MAX_TENSORS] at hcap hlen
    obtain ⟨hledger', hpeak, hcount⟩ := (hledger.perm hp).strike hr.poolBytes_lt (by omega)
    refine ⟨⟨?_, ?_⟩, ?_, ?_⟩
    · rw [hpool, hstats]
      exact hledger'
    · rw [hstats, hnext, hcount]
      omega
    · rw [hstats, hledger'.total, hledger.total]
    · rw [hstats, hpeak]

theorem Exact.tensorFree
    (hcall : tensorFree id s = .done (st, s')) : RunInv s' ∧ Exact s' ∧ Quiet s s' := by
  obtain ⟨F, hinv⟩ := hr.inv
  obtain ⟨st₁, s₁, F', hc, hinv', hbase⟩ := hinv.tensorFree hr.managed_lt id
  obtain ⟨-, rfl⟩ : st₁ = st ∧ s₁ = s' := by simpa [hc] using hcall
  have hr' := hr.step hinv' hbase
  exact ⟨hr', h.strikes hr (tensorFree_strikes hc) hr' hbase⟩

theorem Exact.setTensor (i : Nat) (f : TensorAlloc → TensorAlloc)
    (hkey : ∀ t, (f t).key = t.key) (hline : ∀ t, (f t).line = t.line) :
    RunInv (s.setTensor i f) ∧ Exact (s.setTensor i f) ∧ Quiet s (s.setTensor i f) := by
  obtain ⟨F, hinv⟩ := hr.inv
  have hr' : RunInv (s.setTensor i f) := hr.step (hinv.setTensor i f hkey) rfl
  exact ⟨hr', h.strikes hr (strikes_setTensor f hline) hr' rfl⟩

theorem Exact.tensorRef (id : Nat) :
    Exact (tensorRef id s).2 ∧ Quiet s (TensorMm.tensorRef id s).2 := by
  unfold TensorMm.tensorRef
  split
  · exact ⟨h, rfl, rfl⟩
  · rename_i i _
    exact (h.setTensor hr i (fun t => { t with refCount := u32 (t.refCount + 1) })
      (fun _ => rfl) fun _ => rfl).2

theorem Exact.setPinned (pinned : Bool) (id : Nat) :
    RunInv (setPinned pinned id s).2 ∧ Exact (setPinned pinned id s).2 := by
  unfold TensorMm.setPinned
  split
  · exact ⟨hr, h⟩
  · rename_i i _
    obtain ⟨hr', h', -⟩ := h.setTensor hr i (fun t => { t with pinned := pinned })
      (fun _ => rfl) fun _ => rfl
    exact ⟨hr', h'⟩

theorem Exact.tensorUnref (hcall : tensorUnref id s = .done (st, s')) : Exact s' ∧ Quiet s s' := by
  unfold TensorMm.tensorUnref at hcall
  split at hcall
  · cases hcall
    exact ⟨h, rfl, rfl⟩
  · rename_i i _
    split at hcall
    · cases hcall
      exact ⟨h, rfl, rfl⟩
    · obtain ⟨hr₁, h₁, hq₁⟩ := h.setTensor hr i .dropped (fun _ => rfl) fun _ => rfl
      simp only [] at hcall
      split at hcall
      · obtain ⟨-, h', hq'⟩ := h₁.tensorFree hr₁ hcall
        exact ⟨h', hq₁.trans hq'⟩
      · cases hcall
        exact ⟨h₁, hq₁⟩

theorem Exact.modelFree {fuel : Nat}
    (hcall : modelFree fuel s = .done (st, s')) : Exact s' ∧ Quiet s s' := by
  refine (modelFree_preserves (P := fun s' => RunInv s' ∧ Exact s' ∧ Quiet s s') ?_
    ⟨hr, h, rfl, rfl⟩ hcall).2
  rintro i s₁ st₁ s₂ - - hfree ⟨hr₁, h₁, hq₁⟩
  obtain ⟨hr₂, h₂, hq₂⟩ := h₁.tensorFree hr₁ hfree
  exact ⟨hr₂, h₂, hq₁.trans hq₂⟩

/-- `tensor_alloc_aligned_profiled`: the peak follows the use. -/
theorem Exact.alloc {hasOut : Bool} {q : AllocRequest} {res : AllocResult} (hq : q.InRange)
    (hcall : tensorAllocAlignedProfiled hasOut q s = .done (res, s')) :
    Exact s' ∧ s'.globalStats.totalMemory = s.globalStats.totalMemory ∧
      s'.globalStats.peakUsage = max s.globalStats.peakUsage s'.globalStats.usedMemory := by
  obtain ⟨F, hinv⟩ := hr.inv
  rcases hinv.alloc_returned hr.managed_lt hq hcall with ⟨-, -, -, rfl⟩ | ⟨t, r, rfl, ha⟩
  · exact ⟨h, rfl, (Nat.max_eq_left h.ledger.used_le_peak).symm⟩
  · obtain ⟨F', hinv'⟩ := ha.inv
    have hstats : s'.globalStats = statsAfterAlloc t s.globalStats := by
      obtain ⟨region, block, a, -, rfl, rfl⟩ := alloc_enters hcall
      simp [enterTensor]
    have hpool : poolBytes s' = poolBytes s := by rw [poolBytes, poolBytes, ha.poolBase]
    have hperm : (t.line :: lines s).Perm (lines s') := by
      rw [lines, lines, ha.live_eq, map_append]
      exact (perm_append_singleton _ _).symm
    -- the new state is sound, so the tensor has room among the managed bytes
    have hroom : t.size + sumLines (lines s) ≤ poolBytes s := by
      have hbal := hinv'.sound.toCovers.balance
      have hbytes : bytes (live s') = sumLines (lines s) + t.size := by
        simp [ha.live_eq, bytes, sumLines, lines, TensorAlloc.line, Function.comp_def]
      simp only [poolBytes]
      omega
    obtain ⟨hlen, hcap⟩ := hr.counts
    have hallocs := h.ledger.allocs
    have hfrees := h.frees
    simp only [MAX_BLOCKS, MAX_TENSORS] at hlen hcap
    have hledger := h.ledger.enter hr.poolBytes_lt hroom (by omega)
    refine ⟨⟨?_, ?_⟩, ?_, ?_⟩
    · rw [hpool, hstats]
      exact hledger.perm hperm
    · have hcount : (statsAfterAlloc t s.globalStats).freeCount = s.globalStats.freeCount := by
        simp [statsAfterAlloc, statsAddAllocationProfile]
      rw [hstats, hcount]
      exact hfrees.trans ha.next_le
    · rw [hstats, hledger.total, h.ledger.total]
    · rw [hstats]
      simp only [statsAfterAlloc, statsAddAllocationProfile, profile_usedMemory, profile_peakUsage]
      split
      · omega
      · omega

end

theorem exact_init {s₀ : MmState} (hb : Boot s₀) (hcall : tensorMmInit l s₀ = .done (.ok, s)) :
    Exact s ∧ s.globalStats.peakUsage = 0 := by
  obtain ⟨hinv, hlim, hlive, hstats, -⟩ : _ ∧ _ ∧ _ ∧
    s.globalStats = MemStats.banked (poolBytes s) ∧ _ := tensorMmInit_inv hb hcall
  have hlt : poolBytes s < 2 ^ 64 := RunInv.poolBytes_lt ⟨hlim, hinv⟩
  have hlines : lines s = [] := by rw [lines, hlive, map_nil]
  have hstats' : s.globalStats =
      { MemStats.zero with totalMemory := poolBytes s, freeMemory := poolBytes s } := by
    rw [hstats, MemStats.banked, u64_eq hlt]
  rw [hstats']
  refine ⟨⟨?_, ?_⟩, rfl⟩
  · rw [hstats', hlines]
    refine ⟨rfl, rfl, rfl, rfl, rfl, ?_, le_rfl, Nat.zero_le _⟩
    intro k hk
    cases k <;> rfl
  · rw [hstats']
    exact Nat.zero_le _

/-- The calls a run consists of. -/
inductive Step : MmState → MmState → Prop where
  | alloc {s s' : MmState} {hasOut : Bool} {q : AllocRequest} {res : AllocResult} :
      q.InRange → tensorAllocAlignedProfiled hasOut q s = .done (res, s') → Step s s'
  | free {s s' : MmState} {id : Nat} {st : AiosStatus} :
      tensorFree id s = .done (st, s') → Step s s'
  | ref {s : MmState} (id : Nat) : Step s (tensorRef id s).2
  | unref {s s' : MmState} {id : Nat} {st : AiosStatus} :
      tensorUnref id s = .done (st, s') → Step s s'
  | modelFree {s s' : MmState} {fuel : Nat} {st : AiosStatus} :
      modelFree fuel s = .done (st, s') → Step s s'

/-- A run with the states since the initialisation, the latest first. -/
inductive Trace (l : Layout) : List MmState → Prop where
  | init {s₀ s : MmState} : Boot s₀ → tensorMmInit l s₀ = .done (.ok, s) → Trace l [s]
  | step {s s' : MmState} {hist : List MmState} :
      Trace l (s :: hist) → Step s s' → Trace l (s' :: s :: hist)

theorem Reach.step (h : Reach l s) (hstep : Step s s') : Reach l s' := by
  cases hstep with
  | alloc hq hcall => exact h.alloc hq hcall
  | free hcall => exact h.free hcall
  | ref id => exact h.ref id
  | unref hcall => exact h.unref hcall
  | modelFree hcall => exact h.modelFree hcall

theorem RunInv.of_step (h : RunInv s) (hstep : Step s s') : RunInv s' := by
  cases hstep with
  | alloc hq hcall => exact h.of_alloc hq hcall
  | free hcall => exact h.of_free hcall
  | ref id => exact h.of_ref id
  | unref hcall => exact h.of_unref hcall
  | modelFree hcall => exact h.of_modelFree hcall

/-- A step keeps the total, and the peak is the larger of the old peak and the new use. -/
theorem Exact.step (h : Exact s) (hr : RunInv s) (hstep : Step s s') :
    Exact s' ∧ s'.globalStats.totalMemory = s.globalStats.totalMemory ∧
      s'.globalStats.peakUsage = max s.globalStats.peakUsage s'.globalStats.usedMemory := by
  -- without an allocation the peak stays, and it still bounds the use
  have hquiet : ∀ {u : MmState}, Exact u ∧ Quiet s u → Exact u ∧
      u.globalStats.totalMemory = s.globalStats.totalMemory ∧
      u.globalStats.peakUsage = max s.globalStats.peakUsage u.globalStats.usedMemory := by
    rintro u ⟨hu, htotal, hpeak⟩
    have hle := hu.ledger.used_le_peak
    exact ⟨hu, htotal, by omega⟩
  cases hstep with
  | alloc hq hcall => exact h.alloc hr hq hcall
  | free hcall => exact hquiet (h.tensorFree hr hcall).2
  | ref id => exact hquiet (h.tensorRef hr id)
  | unref hcall => exact hquiet (h.tensorUnref hr hcall)
  | modelFree hcall => exact hquiet (h.modelFree hr hcall)

/-- What the statistics of a state say about its tensors and free blocks. -/
structure StatsExact (s : MmState) : Prop where
  used : s.globalStats.usedMemory = bytes (live s)
  /-- Walking the free lists of all regions and adding up gives the free memory. -/
  free : ∃ xs : MemRegion → List Nat,
    (∀ r, IsList s.arena.next s.arena.prev (s.arena.freeLists r) (xs r)) ∧
    s.globalStats.freeMemory =
      (MemRegion.all.map fun r => ((xs r).map fun i => (s.arena.blockPool i).size).sum).sum
  balance : s.globalStats.usedMemory + s.globalStats.freeMemory = s.globalStats.totalMemory
  tensors : s.globalStats.tensorCount = (live s).length
  counts : s.globalStats.freeCount ≤ s.globalStats.allocCount ∧
    s.globalStats.tensorCount = s.globalStats.allocCount - s.globalStats.freeCount
  shortTerm : s.globalStats.shortTermMemory =
    bytes ((live s).filter fun t => t.lifetime = .shortTerm)
  longTerm : s.globalStats.longTermMemory = bytes ((live s).filter fun t => t.lifetime = .longTerm)
  realtime : s.globalStats.realtimeMemory = bytes ((live s).filter fun t => t.lifetime = .realtime)
  random : s.globalStats.randomMemory = bytes ((live s).filter fun t => t.lifetime = .random)

theorem sumLines_lines (ts : List TensorAlloc) : sumLines (ts.map TensorAlloc.line) = bytes ts := by
  simp [sumLines, bytes, TensorAlloc.line, Function.comp_def]

theorem Exact.statsExact (h : Exact s) (hr : RunInv s) : StatsExact s := by
  obtain ⟨F, hinv⟩ := hr.inv
  obtain ⟨htotal, hused, hfree, htensors, hallocs, hlife, -, -⟩ := h.ledger
  have hbytes : sumLines (lines s) = bytes (live s) := sumLines_lines _
  have hlen : (lines s).length = (live s).length := by simp [lines]
  have hkind : ∀ k ∈ MemLifetime.kinds, s.globalStats.lifetimeMemory k =
      bytes ((live s).filter fun t => t.lifetime = k) := by
    intro k hk
    rw [hlife k hk, sumLifetime, lines, filter_map, sumLines_lines]
    rfl
  refine ⟨hused.trans hbytes, ⟨fun r => (F r).map FreeNode.ix, hinv.represents.links, ?_⟩, by omega,
    htensors.trans hlen, ⟨by omega, by omega⟩, hkind .shortTerm (by decide),
    hkind .longTerm (by decide), hkind .realtime (by decide), hkind .random (by decide)⟩
  -- what the descriptors of a region record are the sizes of its nodes
  have hregion : ∀ r, ((F r).map FreeNode.ix).map (fun i => (s.arena.blockPool i).size) =
      (F r).map fun n => n.span.size := by
    intro r
    rw [map_map]
    exact map_congr_left fun n hn => (hinv.represents.holds r n hn).size_eq
  have hbal := hinv.sound.toCovers.balance
  simp only [hregion]
  show s.globalStats.freeMemory = freeBytes F
  simp only [poolBytes] at hfree
  omega

structure Recorded (s : MmState) (hist : List MmState) : Prop where
  exact : Exact s
  total : ∀ u ∈ hist, u.globalStats.totalMemory = s.globalStats.totalMemory
  below : ∀ u ∈ s :: hist, u.globalStats.usedMemory ≤ s.globalStats.peakUsage
  attained : ∃ u ∈ s :: hist, u.globalStats.usedMemory = s.globalStats.peakUsage

theorem Trace.reach : ∀ {hist : List MmState}, Trace l hist → ∀ s ∈ hist, Reach l s := by
  intro hist h
  induction h with
  | init hb hcall =>
    exact forall_mem_singleton.mpr (.init hb hcall)
  | step _ hstep ih =>
    exact forall_mem_cons.mpr ⟨(ih _ mem_cons_self).step hstep, ih⟩

theorem Recorded.step {hist : List MmState} (h : Recorded s hist) (hr : RunInv s)
    (hstep : Step s s') : Recorded s' (s :: hist) := by
  obtain ⟨hexact, htotal, hpeak⟩ := h.exact.step hr hstep
  refine ⟨hexact, ?_, ?_, ?_⟩
  · exact forall_mem_cons.mpr ⟨htotal.symm, fun u hu => (h.total u hu).trans htotal.symm⟩
  · refine forall_mem_cons.mpr ⟨hexact.ledger.used_le_peak, fun u hu => ?_⟩
    have hle := h.below u hu
    omega
  · -- the maximum was attained before, or it is attained now
    rcases Nat.le_total s'.globalStats.usedMemory s.globalStats.peakUsage with hle | hle
    · obtain ⟨u, hu, he⟩ := h.attained
      exact ⟨u, mem_cons_of_mem _ hu, by omega⟩
    · exact ⟨s', mem_cons_self, by omega⟩

theorem Trace.recorded {hist : List MmState} (h : Trace l (s :: hist)) : Recorded s hist := by
  generalize hall : s :: hist = states at h
  induction h generalizing s hist with
  | init hb hcall =>
    obtain ⟨rfl, rfl⟩ := List.cons.inj hall
    obtain ⟨hexact, hpeak⟩ := exact_init hb hcall
    have hused := hexact.ledger.used_le_peak
    refine ⟨hexact, by simp, ?_, s, mem_cons_self, by omega⟩
    intro u hu
    rw [mem_singleton.mp hu]
    exact hused
  | step htrace hstep ih =>
    cases hall
    exact (ih rfl).step (htrace.reach _ mem_cons_self).invariant hstep

/-- In every state of every run the statistics are those of the live tensors and the free blocks,
the total is what it was, and the peak is the largest use so far. -/
theorem stats_runs_exact {hist : List MmState} (h : Trace l (s :: hist)) :
    StatsExact s ∧ (∀ u ∈ hist, u.globalStats.totalMemory = s.globalStats.totalMemory) ∧
      (∀ u ∈ s :: hist, u.globalStats.usedMemory ≤ s.globalStats.peakUsage) ∧
      (∃ u ∈ s :: hist, u.globalStats.usedMemory = s.globalStats.peakUsage) ∧
      s.globalStats.peakUsage ≤ s.globalStats.totalMemory := by
  have hrec := h.recorded
  have hr := (h.reach s mem_cons_self).invariant
  refine ⟨hrec.exact.statsExact hr, hrec.total, hrec.below, hrec.attained, ?_⟩
  rw [hrec.exact.ledger.total]
  exact hrec.exact.ledger.peak_le

/-- The statistics once a line has been allocated after the boot. -/
theorem stats_runs_exact_line : ∃ s s', Trace imageLayout [s', s] ∧ live s' ≠ [] ∧
    StatsExact s' ∧ (∀ u ∈ [s], u.globalStats.totalMemory = s'.globalStats.totalMemory) ∧
      (∀ u ∈ [s', s], u.globalStats.usedMemory ≤ s'.globalStats.peakUsage) ∧
      (∃ u ∈ [s', s], u.globalStats.usedMemory = s'.globalStats.peakUsage) ∧
      s'.globalStats.peakUsage ≤ s'.globalStats.totalMemory := by
  obtain ⟨s, hcall⟩ := exists_init
  obtain ⟨-, -, hlive, -⟩ := tensorMmInit_inv boot_bootState hcall
  obtain ⟨s', t, hline, ha⟩ := (Reach.init boot_bootState hcall).line_call hlive
  have htrace : Trace imageLayout [s', s] :=
    (Trace.init boot_bootState hcall).step (.alloc lineRequest_inRange hline)
  exact ⟨s, s', htrace, by simp [ha.live_eq], stats_runs_exact htrace⟩

/-! ## Memory by region

The initialisation clears the statistics of three regions, and no call counts in them. -/

/-- The statistics of the regions `MODEL`, `INFERENCE` and `DMA`. -/
def MemStats.regions (st : MemStats) : Nat × Nat × Nat :=
  (st.modelMemory, st.inferenceMemory, st.dmaMemory)

theorem profile_regions (st : MemStats) (k : MemLifetime) (f : Nat → Nat) :
    (st.profile k f).regions = st.regions := by
  cases k <;> rfl

theorem Strikes.regions (h : Strikes s s') : s'.globalStats.regions = s.globalStats.regions := by
  cases h with
  | none _ hstats _ => rw [hstats]
  | one t _ hstats _ =>
    rw [hstats]
    exact profile_regions _ _ _

theorem Reach.regions (h : Reach l s) : s.globalStats.regions = (0, 0, 0) := by
  induction h with
  | init hb hcall =>
    obtain ⟨-, -, -, hstats, -⟩ := tensorMmInit_inv hb hcall
    rw [hstats]
    rfl
  | alloc _ _ hcall ih =>
    rcases alloc_cases hcall with ⟨-, -, -, rfl⟩ | ⟨region, block, a, -, -, rfl, -⟩
    · exact ih
    · exact (profile_regions _ _ _).trans ih
  | free _ hcall ih => exact (tensorFree_strikes hcall).regions.trans ih
  | ref id _ ih =>
    unfold tensorRef
    split <;> exact ih
  | unref _ hcall ih =>
    unfold tensorUnref at hcall
    split at hcall
    · cases hcall
      exact ih
    split at hcall
    · cases hcall
      exact ih
    dsimp only at hcall
    split at hcall
    · exact (tensorFree_strikes hcall).regions.trans ih
    · cases hcall
      exact ih
  | modelFree _ hcall ih =>
    refine modelFree_preserves (P := fun u => u.globalStats.regions = (0, 0, 0)) ?_ ih hcall
    exact fun _ _ _ _ _ _ hfree h => (tensorFree_strikes hfree).regions.trans h

/-- The statistics of the regions are the sums over their tensors. -/
def RegionsExact (s : MmState) : Prop :=
  s.globalStats.regions = (bytes ((live s).filter fun t => t.region = .model),
    bytes ((live s).filter fun t => t.region = .inference),
    bytes ((live s).filter fun t => t.region = .dma))

theorem Reach.bytes_region (h : Reach l s) (r : MemRegion) :
    0 = bytes ((live s).filter fun t => t.region = r) ↔ ∀ t ∈ live s, t.region ≠ r := by
  obtain ⟨F, hinv⟩ := h.invariant.inv
  constructor
  · intro hzero t ht hr
    have hmem : t.size ∈ ((live s).filter fun t => t.region = r).map TensorAlloc.size :=
      mem_map_of_mem (mem_filter.mpr ⟨ht, decide_eq_true hr⟩)
    have hle : t.size ≤ 0 := hzero ▸ le_sum_of_mem hmem
    exact hle.not_gt (hinv.sound.liveAligned t ht).size_pos
  · intro hnone
    rw [filter_eq_nil_iff.mpr fun t ht hr => hnone t ht (of_decide_eq_true hr)]
    rfl

/-- **In every state of every run the statistics of the regions are right exactly when none of the
three has a tensor.** -/
theorem region_stats_exact_iff (h : Reach l s) : RegionsExact s ↔
    ∀ t ∈ live s, t.region ≠ .model ∧ t.region ≠ .inference ∧ t.region ≠ .dma := by
  simp only [RegionsExact, h.regions, Prod.mk.injEq, h.bytes_region, imp_and, forall_and]

theorem region_stats_exact_line : ∃ s t, Reach imageLayout s ∧ live s = [t] ∧ RegionsExact s := by
  obtain ⟨_, s, _, t, hrun⟩ := exists_lineRun
  exact ⟨s, t, hrun.allocated, hrun.live_eq,
    (region_stats_exact_iff hrun.allocated).mpr (by simp [hrun.live_eq, hrun.region])⟩

/-- A tensor in the region of the models, and no memory of models. -/
theorem model_tensor_uncounted : ∃ s t, Reach imageLayout s ∧ t ∈ live s ∧ t.region = .model ∧
    s.globalStats.modelMemory = 0 ∧ ¬RegionsExact s := by
  obtain ⟨s₀, hs₀, hlive⟩ := exists_reach
  obtain ⟨s, t, hcall, ha⟩ := hs₀.serve_line (q := { lineRequest with region := 2 }) hlive
    (show (MB 512, .model) ∈ memoryPools by decide)
    ⟨by decide, rfl, by decide, by decide, by decide, by decide⟩ (by decide)
  have hs := hs₀.alloc ⟨by decide, by decide⟩ hcall
  have ht : t ∈ live s := by simp [ha.live_eq]
  refine ⟨s, t, hs, ht, ha.region, congrArg Prod.fst hs.regions, fun hexact => ?_⟩
  have hzero := (Prod.mk.inj (hs.regions.symm.trans hexact)).1
  exact (hs.bytes_region .model).mp hzero t ht ha.region

end AiosKernel.TensorMm
