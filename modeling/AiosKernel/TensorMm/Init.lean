/-
# `AiosKernel.TensorMm.Init` — `tensor_mm_init` and its self-test

The pools are laid out from the end of the kernel image on, the 2 MiB hole of
the bootstrap user mapping is cut out of whichever pool it falls into, and the
allocator then probes itself: three requests that must be refused, and two
allocations around the hole that are released again.  The probe restores the
statistics and the id counter, so the ids it used are handed out once more.
-/
import AiosKernel.TensorMm.Alloc

namespace AiosKernel.TensorMm

open Word DList Tiling Outcome List Function

/-! ## The model -/

/-- Where the linker script ends the kernel image: it starts at 1 MiB and an `ASSERT` keeps
it below the user base. -/
structure Layout where
  kernelEnd : Nat
  lo : MB 1 ≤ kernelEnd
  hi : kernelEnd ≤ AIOS_BOOTSTRAP_USER_BASE

/-- `__tensor_pool_start`: the image end, aligned to 2 MiB. -/
def Layout.tensorPoolStart (l : Layout) : Nat :=
  (l.kernelEnd + (HUGE_PAGE_SIZE - 1)) / HUGE_PAGE_SIZE * HUGE_PAGE_SIZE

def poolBlock (base size : Nat) (type : MemRegion) (b : MemBlock) : MemBlock :=
  { b with base := base, size := size, type := type, isFree := true,
           isHuge := HUGE_PAGE_SIZE ≤ size, align := TENSOR_ALIGN }

def addInitialPoolBlock (base size : Nat) (type : MemRegion) (s : MmState) :
    Outcome (AiosStatus × MmState) :=
  if size = 0 then .done (.ok, s)
  else
    match s.arena.allocBlock with
    | none => .done (.errNomem, s)
    | some (block, a) => do
      let a ← (a.setBlock block (poolBlock base size type)).freeListInsert block type
      .done (.ok, { s with
        arena := a
        globalStats := { s.globalStats with
          totalMemory := u64 (s.globalStats.totalMemory + size)
          freeMemory := u64 (s.globalStats.freeMemory + size) } })

/-- The body of the pool loop, once the pool's range is known. -/
def addPool (base size : Nat) (type : MemRegion) (s : MmState) :
    Outcome (AiosStatus × MmState) :=
  let poolEnd := base + size
  if rangesOverlap base poolEnd AIOS_BOOTSTRAP_USER_BASE AIOS_BOOTSTRAP_USER_END then do
    let frontEnd := min poolEnd AIOS_BOOTSTRAP_USER_BASE
    let backBase := max base AIOS_BOOTSTRAP_USER_END
    let overlap := min poolEnd AIOS_BOOTSTRAP_USER_END - max base AIOS_BOOTSTRAP_USER_BASE
    let s := { s with excludedBytes := u64 (s.excludedBytes + overlap) }
    let (status, s) ← addInitialPoolBlock base (if base < frontEnd then frontEnd - base else 0) type s
    if status ≠ .ok then .done (status, s)
    else addInitialPoolBlock backBase (if backBase < poolEnd then poolEnd - backBase else 0) type s
  else addInitialPoolBlock base size type s

/-- The pool loop of `tensor_mm_init`. -/
def initPools : List (Nat × MemRegion) → Nat → MmState → Outcome (AiosStatus × MmState)
  | [], _, s => .done (.ok, s)
  | (size, type) :: pools, poolBase, s =>
    if UINT64_MAX - (HUGE_PAGE_SIZE - 1) < poolBase then .done (.errOverflow, s)
    else
      let base := alignUp64 poolBase HUGE_PAGE_SIZE
      let s := { s with poolBase := update s.poolBase type base }
      if UINT64_MAX - size < base then .done (.errOverflow, s)
      else do
        let (status, s) ← addPool base size type s
        if status ≠ .ok then .done (status, s) else initPools pools (base + size) s

/-- Walk a chain until a block fails the test. -/
def allFrom (a : Arena) (test : MemBlock → Bool) : Nat → Option Nat → Outcome Bool
  | _, none => .done true
  | 0, some _ => .diverge
  | fuel + 1, some i =>
    if test (a.blockPool i) then allFrom a test fuel (a.blockPool i).next else .done false

/-- `free_lists_exclude_bootstrap_user_hole`, over the regions still to look at. -/
def freeListsExclude (a : Arena) : List MemRegion → Outcome Bool
  | [] => .done true
  | r :: rs => do
    let ok ← allFrom a (fun b =>
      let fin := u64 (b.base + b.size)
      !(b.size = 0 || fin < b.base ||
        rangesOverlap b.base fin AIOS_BOOTSTRAP_USER_BASE AIOS_BOOTSTRAP_USER_END))
      (MAX_BLOCKS + 1) (a.freeLists r)
    if ok then freeListsExclude a rs else .done false

/-- `active_tensors_exclude_bootstrap_user_hole`. -/
def activeTensorsExclude (s : MmState) : Bool :=
  (List.range s.tensorCount).all fun i =>
    let t := s.tensorTable i
    !(t.size = 0 || t.physAddr > UINT64_MAX - t.size) &&
      !rangesOverlap t.physAddr (t.physAddr + t.size) AIOS_BOOTSTRAP_USER_BASE
        AIOS_BOOTSTRAP_USER_END

def bootstrapUserRangeExcluded (s : MmState) : Outcome Bool := do
  let free ← Outcome.and s.exclusionReady (freeListsExclude s.arena MemRegion.all)
  .done (free && activeTensorsExclude s)

/-- The walk of `tensor_free_list_has_bootstrap_boundaries`, with its two flags. -/
def boundariesFrom (a : Arena) : Nat → Option Nat → Bool → Bool → Outcome Bool
  | _, none, front, back => .done (front && back)
  | 0, some _, _, _ => .diverge
  | fuel + 1, some i, front, back =>
    let b := a.blockPool i
    let atFront := b.base ≤ UINT64_MAX - b.size && b.base + b.size == AIOS_BOOTSTRAP_USER_BASE
    boundariesFrom a fuel b.next (front || atFront) (back || b.base == AIOS_BOOTSTRAP_USER_END)

/-- `tensor_free_list_has_bootstrap_boundaries`. -/
def hasBootstrapBoundaries (s : MmState) : Outcome Bool :=
  boundariesFrom s.arena (MAX_BLOCKS + 1) (s.arena.freeLists .tensor)
    (s.poolBase .tensor == AIOS_BOOTSTRAP_USER_BASE) false

/-- The first allocation of the self-test: all of the pool below the hole.  Returns whether to
go on, and the tensor that is live now. -/
def probeFront (s : MmState) : Outcome (Bool × Option TensorAlloc × MmState) :=
  let frontSize := AIOS_BOOTSTRAP_USER_BASE - s.poolBase .tensor
  if frontSize = 0 then .done (true, none, s)
  else do
    let ((status, out), s) ← tensorAllocAligned true frontSize TENSOR_ALIGN 1 s
    match status, out with
    | .ok, some t => .done (t.physAddr == s.poolBase .tensor && t.size == frontSize, some t, s)
    | _, _ => .done (false, none, s)

/-- The second allocation of the self-test: one page, which must lie above the hole.  It is
skipped by the `goto` after a first probe that went wrong. -/
def probeBack (go : Bool) (s : MmState) : Outcome (Bool × Option TensorAlloc × MmState) :=
  if go then do
    let ((status, out), s) ← tensorAllocAligned true PAGE_SIZE PAGE_SIZE 1 s
    match status, out with
    | .ok, some t => .done (AIOS_BOOTSTRAP_USER_END ≤ t.physAddr &&
        allocationExcludesBootstrapUserHole t.physAddr t.size, some t, s)
    | _, _ => .done (false, none, s)
  else .done (false, none, s)

/-- One `if` of the clean-up. -/
def releaseProbe (probe : Option TensorAlloc) (passed : Bool) (s : MmState) :
    Outcome (Bool × MmState) :=
  match probe with
  | none => .done (passed, s)
  | some t => do
    let (status, s) ← tensorFree t.id s
    .done (passed && status == .ok, s)

/-- `bootstrap_user_tensor_exclusion_selftest`. -/
def exclusionSelftest (s : MmState) : Outcome (AiosStatus × MmState) :=
  if AIOS_BOOTSTRAP_USER_BASE < s.poolBase .tensor then .done (.errIo, s)
  else do
    let before := s
    let (go, front, s) ← probeFront s
    let (passed, back, s) ← probeBack go s
    let (passed, s) ← releaseProbe back passed s
    let (passed, s) ← releaseProbe front passed s
    let passed ← Outcome.and passed (bootstrapUserRangeExcluded s)
    let passed ← Outcome.and passed (hasBootstrapBoundaries s)
    .done (if passed then .ok else .errIo,
      { s with globalStats := before.globalStats, nextTensorId := before.nextTensorId })

def MemStats.zero : MemStats := ⟨0, 0, 0, 0, 0, 0, 0, 0, 0, 0, 0, 0, 0, 0, 0⟩

/-- The three requests that must be refused, in the order of the `||`. -/
def probesRefused (s : MmState) : Outcome (Bool × MmState) := do
  let ((st₁, _), s) ← tensorAllocAligned true UINT64_MAX (MB 64) 1 s
  if st₁ ≠ .errOverflow then .done (false, s)
  else
    let ((st₂, _), s) ← tensorAllocAligned true PAGE_SIZE PAGE_SIZE 8 s
    if st₂ ≠ .errInval then .done (false, s)
    else
      let ((st₃, _), s) ← tensorAllocAligned true PAGE_SIZE 96 1 s
      .done (st₃ == .errInval, s)

def tensorMmInit (l : Layout) (s : MmState) : Outcome (AiosStatus × MmState) := do
  let s := { s with globalStats := MemStats.zero, exclusionReady := false, excludedBytes := 0 }
  let (status, s) ← initPools memoryPools l.tensorPoolStart s
  if status ≠ .ok then .done (status, s)
  else
    let s := { s with exclusionReady := true }
    let excluded ← Outcome.and (s.excludedBytes == AIOS_BOOTSTRAP_USER_SIZE)
      (bootstrapUserRangeExcluded s)
    if !excluded then .done (.errIo, { s with exclusionReady := false })
    else
      let (refused, s) ← probesRefused s
      if !refused then .done (.errIo, { s with exclusionReady := false })
      else
        let (status, s) ← exclusionSelftest s
        if status ≠ .ok then .done (.errIo, { s with exclusionReady := false })
        else .done (.ok, s)

/-! ## The pools -/

/-- The addresses of a range outside the user hole. -/
def clearRange (base size : Nat) : Set Nat :=
  {x | base ≤ x ∧ x < base + size ∧ ¬ (AIOS_BOOTSTRAP_USER_BASE ≤ x ∧ x < AIOS_BOOTSTRAP_USER_END)}

theorem mem_clearRange {base size x : Nat} : x ∈ clearRange base size ↔ base ≤ x ∧
    x < base + size ∧ ¬ (AIOS_BOOTSTRAP_USER_BASE ≤ x ∧ x < AIOS_BOOTSTRAP_USER_END) := Iff.rfl

/-- The addresses the manager is responsible for, region by region. -/
def managed (base : MemRegion → Nat) (pools : List (Nat × MemRegion)) (r : MemRegion) : Set Nat :=
  {x | ∃ size, (size, r) ∈ pools ∧ x ∈ clearRange (base r) size}

theorem addressable_managed {base : MemRegion → Nat} {pools : List (Nat × MemRegion)}
    (hlim : ∀ p ∈ pools, base p.2 + p.1 ≤ ADDR_LIMIT) : Addressable (managed base pools) := by
  rintro r x ⟨size, hm, hx⟩
  exact (mem_clearRange.mp hx).2.1.trans_le (hlim _ hm)

/-- What `tensor_mm_init` does not touch while it lays out the pools, with `n` descriptors. -/
structure SameTable (n : Nat) (s s' : MmState) : Prop where
  count : s'.tensorCount = s.tensorCount
  nextId : s'.nextTensorId = s.nextTensorId
  next : s'.arena.blockPoolNext ≤ s.arena.blockPoolNext + n

theorem SameTable.trans {m n : Nat} {s s₁ s' : MmState} (h : SameTable m s s₁)
    (h' : SameTable n s₁ s') : SameTable (m + n) s s' := by
  have hm := h.next
  have hn := h'.next
  exact ⟨h'.count.trans h.count, h'.nextId.trans h.nextId, by omega⟩

section

variable {s s' : MmState} {F : MemRegion → List FreeNode} {r : MemRegion}

/-- The nodes of the spans in `sps` that are not empty. -/
def Nodes (sps : List Span) (ns : List FreeNode) : Prop :=
  ns.map FreeNode.span = sps.filter fun sp => sp.size ≠ 0

theorem Nodes.append {sps sps' : List Span} {ns ns' : List FreeNode} (h : Nodes sps ns)
    (h' : Nodes sps' ns') : Nodes (sps ++ sps') (ns ++ ns') := by
  unfold Nodes at *
  rw [map_append, filter_append, h, h']

/-- Statistics that count `n` bytes, all of them free. -/
def MemStats.banked (n : Nat) : MemStats :=
  { MemStats.zero with totalMemory := u64 n, freeMemory := u64 n }

/-- The statistics count what is on the free lists, and nothing else. -/
def Banked (s : MmState) (F : MemRegion → List FreeNode) : Prop :=
  s.globalStats = MemStats.banked (freeBytes F)

/-- An initial block goes to the end of its list, if it is not empty. -/
theorem addInitialPoolBlock_spec {base size : Nat}
    (hcall : addInitialPoolBlock base size r s = .done (.ok, s')) (h : Represents s.arena F)
    (hlast : ∀ m ∈ F r, m.span.base < base) :
    SameTable 1 s s' ∧ s'.poolBase = s.poolBase ∧
      ∃ ns, Nodes [⟨base, size⟩] ns ∧ Represents s'.arena (update F r (F r ++ ns)) ∧
        (Banked s F → Banked s' (update F r (F r ++ ns))) := by
  unfold addInitialPoolBlock at hcall
  by_cases hz : size = 0
  · rw [if_pos hz] at hcall
    cases hcall
    refine ⟨⟨rfl, rfl, Nat.le_succ _⟩, rfl, [], by simp [Nodes, hz], ?_⟩
    rw [append_nil, update_eq_self]
    exact ⟨h, id⟩
  · rw [if_neg hz] at hcall
    rcases h.allocBlock with ⟨hnone, -⟩ | ⟨a₁, halloc, h₁, hnext, hfresh, -⟩
    · rw [hnone] at hcall
      simp at hcall
    · have hself : (a₁.setBlock s.arena.blockPoolNext (poolBlock base size r)).blockPool
          s.arena.blockPoolNext = poolBlock base size r (a₁.blockPool s.arena.blockPoolNext) := by
        rw [Arena.setBlock_blockPool, if_pos rfl]
      have hins : Insertable (a₁.setBlock s.arena.blockPoolNext (poolBlock base size r)) F r (F r) []
          s.arena.blockPoolNext :=
        { split := (append_nil _).symm
          fresh := hfresh
          lt := by simp [hnext]
          type := by rw [hself]; rfl
          isFree := by rw [hself]; rfl
          before := fun m hm => by rw [hself]; exact hlast m hm
          after := by simp }
      obtain ⟨a₂, hcall₂, h₂, hnext₂, -⟩ := (h₁.setFresh hfresh (poolBlock base size r)).insert hins
      rw [halloc] at hcall
      simp only [hcall₂, Outcome.done_bind, done.injEq, Prod.mk.injEq, true_and] at hcall
      subst hcall
      rw [hself] at h₂
      refine ⟨⟨rfl, rfl, (hnext₂.trans hnext).le⟩, rfl,
        [⟨s.arena.blockPoolNext, ⟨base, size⟩⟩], ?_, h₂, ?_⟩
      · simp [Nodes, hz]
      · intro hb
        have happend : freeBytes (update F r (F r ++ [⟨s.arena.blockPoolNext, ⟨base, size⟩⟩])) =
            freeBytes F + size := by
          cases r <;> simp [freeBytes, MemRegion.all] <;> omega
        rw [Banked, happend, hb]
        simp [MemStats.banked, u64]

/-- The nodes a pool leaves on its empty list: what lies below the hole and what lies above. -/
structure PoolNodes (base size : Nat) (ns : List FreeNode) : Prop where
  gaps : ns.Pairwise Gap
  aligned : ∀ n ∈ ns, Aligned n.span
  tiles : Tiles (ns.map FreeNode.span) (clearRange base size)

variable {sps : List Span} {ns : List FreeNode} {pools : List (Nat × MemRegion)} {passed : Bool}

theorem tiles_filter_nonempty {S : Set Nat} :
    ∀ {rs : List Span}, Tiles (rs ++ sps) S → Tiles (rs ++ sps.filter fun sp => sp.size ≠ 0) S := by
  induction sps with
  | nil => exact fun h => h
  | cons sp sps ih =>
    intro rs h
    by_cases hz : sp.size = 0
    · have hfront := h.perm perm_middle
      rw [show sp = ⟨sp.base, 0⟩ by rw [← hz]] at hfront
      simpa [hz] using ih (tiles_empty.mp hfront)
    · have hfront : Tiles ((rs ++ [sp]) ++ sps) S := by simpa using h
      simpa [hz] using ih hfront

theorem poolNodes_of_spans {base size : Nat} (hns : Nodes sps ns)
    (htiles : Tiles sps (clearRange base size))
    (haligned : ∀ sp ∈ sps, 0 < sp.base ∧ sp.base % TENSOR_ALIGN = 0 ∧ sp.size % TENSOR_ALIGN = 0)
    (hgaps : sps.Pairwise fun x y => x.fin < y.base) : PoolNodes base size ns where
  gaps := by
    have h := hgaps.filter (fun sp => sp.size ≠ 0)
    rw [← hns] at h
    exact (pairwise_map (f := FreeNode.span)).mp h
  aligned n hn := by
    have hm : n.span ∈ sps.filter fun sp => sp.size ≠ 0 := hns ▸ mem_map_of_mem hn
    obtain ⟨hmem, hne⟩ := mem_filter.mp hm
    obtain ⟨h₁, h₂, h₃⟩ := haligned n.span hmem
    exact ⟨h₁, h₂, Nat.pos_of_ne_zero (by simpa using hne), h₃⟩
  tiles := by
    rw [hns]
    simpa using @tiles_filter_nonempty sps _ [] htiles

/-- A pool is entered as one block, or as the parts below and above the hole. -/
theorem addPool_spec {base size : Nat} (hcall : addPool base size r s = .done (.ok, s'))
    (h : Represents s.arena F) (hempty : F r = []) (hpos : 0 < base)
    (hbase : base % HUGE_PAGE_SIZE = 0) (hsize : size % HUGE_PAGE_SIZE = 0) :
    SameTable 2 s s' ∧ s'.poolBase = s.poolBase ∧
      ∃ ns, Represents s'.arena (update F r ns) ∧ PoolNodes base size ns ∧
        (Banked s F → Banked s' (update F r ns)) := by
  have hsub : ∀ x y : Nat, (if x < y then y - x else 0) = y - x := by
    intro x y
    split
    · rfl
    · omega
  simp only [addPool, hsub] at hcall
  split at hcall
  · rename_i hover
    obtain ⟨⟨st₁, s₁⟩, hcall₁, hrest⟩ := bind_eq_done.mp hcall
    simp only [rangesOverlap, Bool.and_eq_true, decide_eq_true_eq] at hover
    obtain ⟨hst, hrest⟩ := of_check id hrest
    obtain rfl := not_not.mp hst
    have hnone : ∀ m ∈ F r, m.span.base < base := by simp [hempty]
    obtain ⟨ht₁, hb₁, ns₁, hns₁, hrep₁, hbank₁⟩ := addInitialPoolBlock_spec hcall₁ h hnone
    rw [hempty, nil_append] at hrep₁ hbank₁
    -- the lower part, if any, is on the list when the upper one is added
    have hlast : ∀ m ∈ update F r ns₁ r,
        m.span.base < max base AIOS_BOOTSTRAP_USER_END := by
      intro m hm
      rw [update_self] at hm
      have hm' : m.span ∈ ns₁.map FreeNode.span := mem_map_of_mem hm
      rw [hns₁] at hm'
      obtain ⟨hm', hne⟩ := mem_filter.mp hm'
      rw [mem_singleton.mp hm'] at hne ⊢
      simp only [AIOS_BOOTSTRAP_USER_END, AIOS_BOOTSTRAP_USER_BASE, AIOS_BOOTSTRAP_USER_SIZE,
        HUGE_PAGE_SIZE, MB] at *
      omega
    obtain ⟨ht₂, hb₂, ns₂, hns₂, hrep₂, hbank₂⟩ := addInitialPoolBlock_spec hrest hrep₁ hlast
    rw [update_self, update_idem] at hrep₂ hbank₂
    have hbank : Banked s F → Banked s' _ := fun hb => hbank₂ (hbank₁ hb)
    have hns := hns₁.append hns₂
    rw [singleton_append] at hns
    have hst : SameTable 1 s s₁ := { ht₁ with }
    refine ⟨hst.trans ht₂, hb₂.trans hb₁, ?_⟩
    simp only [AIOS_BOOTSTRAP_USER_END, AIOS_BOOTSTRAP_USER_BASE, AIOS_BOOTSTRAP_USER_SIZE,
      HUGE_PAGE_SIZE, MB] at *
    refine ⟨_, hrep₂, poolNodes_of_spans hns ⟨?_, fun x => ?_⟩ ?_ ?_, hbank⟩
    · refine pairwise_pair.mpr fun x h₁ h₂ => ?_
      simp only [Span.mem_iff] at h₁ h₂
      omega
    · simp only [mem_clearRange, mem_cons, not_mem_nil, or_false, exists_eq_or_imp,
        exists_eq_left, Span.mem_iff, AIOS_BOOTSTRAP_USER_END, AIOS_BOOTSTRAP_USER_BASE,
        AIOS_BOOTSTRAP_USER_SIZE, HUGE_PAGE_SIZE, MB]
      omega
    · intro sp hsp
      simp only [mem_cons, not_mem_nil, or_false] at hsp
      rcases hsp with rfl | rfl
      all_goals
        simp only [TENSOR_ALIGN]
        omega
    · refine pairwise_pair.mpr ?_
      simp only [Span.fin]
      omega
  · rename_i hover
    simp only [rangesOverlap, Bool.and_eq_true, decide_eq_true_eq] at hover
    obtain ⟨ht, hb, ns, hns, hrep, hbank⟩ := addInitialPoolBlock_spec hcall h (by simp [hempty])
    rw [hempty, nil_append] at hrep hbank
    refine ⟨⟨ht.count, ht.nextId, Nat.le_succ_of_le ht.next⟩, hb, ns, hrep,
      poolNodes_of_spans hns ⟨?_, fun x => ?_⟩ ?_ ?_, hbank⟩
    · exact pairwise_singleton _ _
    · simp only [mem_clearRange, mem_singleton, exists_eq_left, Span.mem_iff]
      omega
    · intro sp hsp
      obtain rfl := mem_singleton.mp hsp
      simp only [HUGE_PAGE_SIZE, TENSOR_ALIGN] at *
      omega
    · exact pairwise_singleton _ _

theorem managed_snoc {base : MemRegion → Nat} {size b : Nat} (hnew : ∀ p ∈ pools, p.2 ≠ r) :
    managed (update base r b) (pools ++ [(size, r)]) =
      update (managed base pools) r (clearRange b size) := by
  have hnot : ∀ sz, (sz, r) ∉ pools := fun sz hm => hnew _ hm rfl
  funext r'
  by_cases hr : r' = r
  · subst hr
    ext x
    simp [managed, hnot]
  · ext x
    simp [managed, hr]

theorem Sound.nil_of_empty {M : MemRegion → Set Nat} {live : List TensorAlloc}
    (h : Sound M F live) (hM : M r = ∅) : F r = [] := by
  refine eq_nil_iff_forall_not_mem.mpr fun n hn => ?_
  have hmem : n.span.base ∈ n.span := by
    have := (h.freeAligned r n hn).size_pos
    rw [Span.mem_iff]
    omega
  have hx := ((h.tiles r).cover n.span.base).mpr
    ⟨n.span, mem_append_left _ (mem_map_of_mem hn), hmem⟩
  simp [hM] at hx

theorem Sound.addPool {M : MemRegion → Set Nat} {base size : Nat} (h : Sound M F [])
    (hns : PoolNodes base size ns) :
    Sound (update M r (clearRange base size)) (update F r ns) [] where
  freeAligned := forall_mem_update hns.aligned fun r' _ => h.freeAligned r'
  liveAligned := by simp
  tiles r' := by
    by_cases hr : r' = r
    · subst hr
      simpa [spansOf] using hns.tiles
    · simpa [spansOf, update_of_ne hr] using h.tiles r'
  ids := by simp
  gaps := (forall_update_iff F fun _ ns => ns.Pairwise Gap).mpr
    ⟨hns.gaps, fun r' _ => h.gaps r'⟩

theorem alignUp64_huge {x : Nat} (hx : x < ADDR_LIMIT) (hmod : x % HUGE_PAGE_SIZE = 0) :
    alignUp64 x HUGE_PAGE_SIZE = x := by
  have hmask := land_mask (u64 (x + (HUGE_PAGE_SIZE - 1))) (k := 21) (w := 64) (by decide)
  have heq : alignUp64 x HUGE_PAGE_SIZE =
      u64 (x + (HUGE_PAGE_SIZE - 1)) % 2 ^ 64 / 2 ^ 21 * 2 ^ 21 := hmask
  simp only [ADDR_LIMIT, HUGE_PAGE_SIZE] at *
  rw [heq, u64_eq (by omega)]
  omega

/-- The pool loop leaves the pools' addresses, less the hole, on the free lists. -/
theorem initPools_spec :
    ∀ {before : List (Nat × MemRegion)} {pb : Nat} {s s' : MmState} {F : MemRegion → List FreeNode},
      initPools pools pb s = .done (.ok, s') → Represents s.arena F →
      Sound (managed s.poolBase before) F [] →
      (∀ p ∈ pools, ∀ q ∈ before, q.2 ≠ p.2) → pools.Pairwise (fun p q => p.2 ≠ q.2) →
      (∀ p ∈ pools, 0 < p.1 ∧ p.1 % HUGE_PAGE_SIZE = 0) → pb % HUGE_PAGE_SIZE = 0 → 0 < pb →
      pb + (pools.map Prod.fst).sum ≤ ADDR_LIMIT →
      (∀ p ∈ before, s.poolBase p.2 + p.1 ≤ ADDR_LIMIT) →
      SameTable (2 * pools.length) s s' ∧ (∀ p ∈ before ++ pools, s'.poolBase p.2 + p.1 ≤ ADDR_LIMIT) ∧
        ∃ F', Represents s'.arena F' ∧ Sound (managed s'.poolBase (before ++ pools)) F' [] ∧
          (Banked s F → Banked s' F') := by
  induction pools with
  | nil =>
    intro before pb s s' F hcall hrep hsound _ _ _ _ _ _ hle
    cases hcall
    rw [append_nil]
    exact ⟨⟨rfl, rfl, le_rfl⟩, hle, F, hrep, hsound, id⟩
  | cons p pools ih =>
    obtain ⟨size, r⟩ := p
    intro before pb s s' F hcall hrep hsound hnew hpw hmods hmod hpos hlim hle
    obtain ⟨hpw₁, hpw₂⟩ := pairwise_cons.mp hpw
    have hnew' : ∀ q ∈ before, q.2 ≠ r := fun q hq => hnew (size, r) (by simp) q hq
    obtain ⟨hszpos, hsz⟩ := hmods (size, r) (by simp)
    simp only [map_cons, sum_cons] at hlim
    -- the region of the pool is still empty
    have hempty : F r = [] := by
      refine hsound.nil_of_empty (Set.eq_empty_iff_forall_notMem.mpr ?_)
      rintro x ⟨sz, hm, -⟩
      exact hnew' _ hm rfl
    have hover : ¬ UINT64_MAX - (HUGE_PAGE_SIZE - 1) < pb := by
      simp only [UINT64_MAX, HUGE_PAGE_SIZE, ADDR_LIMIT] at *
      omega
    simp only [initPools, if_neg hover] at hcall
    have hpb : pb < ADDR_LIMIT := by
      omega
    have hover' : ¬ UINT64_MAX - size < pb := by
      simp only [UINT64_MAX, ADDR_LIMIT] at *
      omega
    rw [alignUp64_huge hpb hmod, if_neg hover'] at hcall
    obtain ⟨⟨st, s₁⟩, hadd, hrest⟩ := bind_eq_done.mp hcall
    obtain ⟨hst, hrest⟩ := of_check id hrest
    obtain rfl := not_not.mp hst
    obtain ⟨ht₁, hb₁, ns, hrep₁, hns, hbank₁⟩ := addPool_spec hadd hrep hempty hpos hmod hsz
    have hsound₁ : Sound (managed s₁.poolBase (before ++ [(size, r)]))
        (update F r ns) [] := by
      rw [hb₁, managed_snoc hnew']
      exact hsound.addPool hns
    have hle₁ : ∀ q ∈ before ++ [(size, r)], s₁.poolBase q.2 + q.1 ≤ ADDR_LIMIT := by
      rw [hb₁]
      dsimp only
      refine forall_mem_append.mpr ⟨fun q hq => ?_, forall_mem_singleton.mpr ?_⟩
      · rw [update_of_ne (hnew' q hq)]
        exact hle q hq
      · rw [update_self]
        omega
    have hnew₁ : ∀ q ∈ pools, ∀ q' ∈ before ++ [(size, r)], q'.2 ≠ q.2 := by
      intro q hq
      exact forall_mem_append.mpr
        ⟨hnew q (by simp [hq]), forall_mem_singleton.mpr (hpw₁ q hq)⟩
    have hmod₁ : (pb + size) % HUGE_PAGE_SIZE = 0 := by
      rw [Nat.add_mod, hmod, hsz]
      rfl
    obtain ⟨ht, hle', F', hrep', hsound', hbank⟩ := ih hrest hrep₁ hsound₁ hnew₁ hpw₂
      (fun q hq => hmods q (by simp [hq])) hmod₁ (by omega) (by omega) hle₁
    rw [append_assoc, singleton_append] at hle' hsound'
    rw [length_cons, Nat.mul_succ, Nat.add_comm]
    have ht' : SameTable 2 s s₁ := { ht₁ with }
    exact ⟨ht'.trans ht, hle', F', hrep', hsound', fun hb => hbank (hbank₁ hb)⟩

/-! ## The self-test -/

/-- The state between the steps of the self-test: the invariant holds, the live tensors, all with
one reference, are the probes, and `n` descriptors are used at most. -/
structure Probing (M : MemRegion → Set Nat) (base : MemRegion → Nat) (s : MmState)
    (probes : List TensorAlloc) (n : Nat) : Prop where
  inv : ∃ F, MmInv M s F
  live_perm : (live s).Perm probes
  refCount : ∀ t ∈ probes, t.refCount = 1
  poolBase : s.poolBase = base
  next : s.arena.blockPoolNext ≤ n

variable {M : MemRegion → Set Nat} {base : MemRegion → Nat} {probes : List TensorAlloc} {n : Nat}

theorem Probing.mono {m : Nat} (h : Probing M base s probes n) (hle : n ≤ m) :
    Probing M base s probes m :=
  { h with next := h.next.trans hle }

section

variable (hM : Addressable M) (h : Probing M base s probes n)
include hM h

theorem Probing.alloc
    {size alignment region : Nat} (hsize : size < 2 ^ 64) (hal : alignment < 2 ^ 32) :
    (∃ st, st ≠ .ok ∧ tensorAllocAligned true size alignment region s = .done ((st, none), s)) ∨
    ∃ s' t, tensorAllocAligned true size alignment region s = .done ((.ok, some t), s') ∧
      Probing M base s' (t :: probes) (n + 2) := by
  obtain ⟨F, hinv⟩ := h.inv
  have hq : AllocRequest.InRange
      { size, alignment, region, lifetime := defaultLifetimeForRegion (MemRegion.ofCode? region),
        realtimeCritical := defaultLifetimeForRegion (MemRegion.ofCode? region) == .realtime,
        stochastic := false } := ⟨hsize, hal⟩
  rcases hinv.alloc hM true _ hq with ⟨st, hst, hcall⟩ | ⟨s', t, r, hcall, ha⟩
  · exact .inl ⟨st, hst, hcall⟩
  · refine .inr ⟨s', t, hcall, ha.inv, ?_, ?_, ha.poolBase.trans h.poolBase,
      (alloc_next hcall).trans (Nat.add_le_add_right h.next 2)⟩
    · rw [ha.live_eq]
      exact (perm_append_singleton _ _).trans (h.live_perm.cons _)
    · exact forall_mem_cons.mpr ⟨ha.refCount, h.refCount⟩

theorem Probing.probesRefused
    (hcall : probesRefused s = .done (true, s')) : s' = s := by
  -- a request refused with an error changes nothing
  have hrefused : ∀ {size alignment region : Nat} {st : AiosStatus} {out : Option TensorAlloc}
      {s' : MmState}, size < 2 ^ 64 → alignment < 2 ^ 32 → st ≠ .ok →
      tensorAllocAligned true size alignment region s = .done ((st, out), s') → s' = s := by
    intro size alignment region st out s' hsize hal hst hc
    rcases @Probing.alloc s M base probes n hM h size alignment region hsize hal with
      ⟨st', -, hc'⟩ | ⟨s'', t, hc', -⟩
    · rw [hc'] at hc
      simp only [done.injEq, Prod.mk.injEq] at hc
      exact hc.2.symm
    · rw [hc'] at hc
      simp only [done.injEq, Prod.mk.injEq] at hc
      exact absurd hc.1.1.symm hst
  obtain ⟨⟨⟨st₁, o₁⟩, s₁⟩, hc₁, hrest₁⟩ := bind_eq_done.mp hcall
  by_cases hst₁ : st₁ = .errOverflow
  · subst hst₁
    obtain rfl := hrefused (by decide) (by decide) (by decide) hc₁
    obtain ⟨⟨⟨st₂, o₂⟩, s₂⟩, hc₂, hrest₂⟩ := bind_eq_done.mp hrest₁
    by_cases hst₂ : st₂ = .errInval
    · subst hst₂
      obtain rfl := hrefused (by decide) (by decide) (by decide) hc₂
      obtain ⟨⟨⟨st₃, o₃⟩, s₃⟩, hc₃, hrest₃⟩ := bind_eq_done.mp hrest₂
      simp only [done.injEq, Prod.mk.injEq, beq_iff_eq] at hrest₃
      obtain ⟨rfl, rfl⟩ := hrest₃
      exact hrefused (by decide) (by decide) (by decide) hc₃
    · simp [hst₂] at hrest₂
  · simp [hst₁] at hrest₁

end

variable {o : Option TensorAlloc}

section

variable (hM : Addressable M) (h : Probing M base s probes n)
include hM h

theorem Probing.probeFront {go : Bool} (hcall : probeFront s = .done (go, o, s')) :
    Probing M base s' (o.toList ++ probes) (n + 2) := by
  simp only [TensorMm.probeFront] at hcall
  split at hcall
  · cases hcall
    exact h.mono (Nat.le_add_right _ _)
  · have hsize : AIOS_BOOTSTRAP_USER_BASE - s.poolBase .tensor < 2 ^ 64 :=
      (Nat.sub_le _ _).trans_lt (by decide)
    rcases @Probing.alloc s M base probes n hM h _ TENSOR_ALIGN 1 hsize (by decide) with
      ⟨st, hst, hc⟩ | ⟨s₁, t, hc, hp⟩
    · rw [hc, Outcome.done_bind] at hcall
      cases st <;> simp at hst hcall <;> obtain ⟨-, rfl, rfl⟩ := hcall <;>
        exact h.mono (Nat.le_add_right _ _)
    · rw [hc, Outcome.done_bind] at hcall
      obtain ⟨-, rfl, rfl⟩ := hcall
      exact hp

theorem Probing.probeBack {go passed : Bool} (hcall : probeBack go s = .done (passed, o, s')) :
    Probing M base s' (o.toList ++ probes) (n + 2) := by
  simp only [TensorMm.probeBack] at hcall
  split at hcall
  · rcases @Probing.alloc s M base probes n hM h PAGE_SIZE PAGE_SIZE 1 (by decide) (by decide) with
      ⟨st, hst, hc⟩ | ⟨s₁, t, hc, hp⟩
    · rw [hc, Outcome.done_bind] at hcall
      cases st <;> simp at hst hcall <;> obtain ⟨-, rfl, rfl⟩ := hcall <;>
        exact h.mono (Nat.le_add_right _ _)
    · rw [hc, Outcome.done_bind] at hcall
      obtain ⟨-, rfl, rfl⟩ := hcall
      exact hp
  · cases hcall
    exact h.mono (Nat.le_add_right _ _)

end

theorem releaseProbe_passed (hcall : releaseProbe o passed s = .done (true, s')) :
    passed = true := by
  cases o with
  | none => exact (of_done hcall).1
  | some t =>
    obtain ⟨⟨st, s₁⟩, -, hrest⟩ := bind_eq_done.mp hcall
    simp only [done.injEq, Prod.mk.injEq, Bool.and_eq_true] at hrest
    exact hrest.1.1

theorem Probing.releaseProbe (hM : Addressable M)
    (h : Probing M base s (o.toList ++ probes) n)
    (hcall : releaseProbe o passed s = .done (true, s')) : Probing M base s' probes (n + 1) := by
  cases o with
  | none =>
    cases hcall
    exact h.mono (Nat.le_succ _)
  | some t =>
    obtain ⟨F, hinv⟩ := h.inv
    have ht : t ∈ live s := h.live_perm.mem_iff.mpr (by simp)
    have href : t.refCount ≤ 1 := (h.refCount t (by simp)).le
    simp only [TensorMm.releaseProbe] at hcall
    rcases hinv.free_live hM ht href with ⟨hc, -⟩ | ⟨s₁, F₁, hc, hinv₁, hperm, hbase, hnext, -⟩
    · rw [hc] at hcall
      simp at hcall
    · rw [hc, Outcome.done_bind] at hcall
      obtain ⟨-, rfl⟩ : passed = true ∧ s₁ = s' := by simpa using hcall
      refine ⟨⟨F₁, hinv₁⟩, ?_, fun u hu => h.refCount u (by simp [hu]), hbase.trans h.poolBase,
        hnext ▸ Nat.succ_le_succ h.next⟩
      exact (hperm.symm.trans h.live_perm).cons_inv

/-- A passed self-test leaves no tensor behind, so restarting the ids is harmless, and puts the
statistics back. -/
theorem Probing.exclusionSelftest (hM : Addressable M)
    (h : Probing M base s [] n) (hid : s.nextTensorId = 1)
    (hcall : exclusionSelftest s = .done (.ok, s')) :
    Probing M base s' [] (n + 6) ∧ s'.globalStats = s.globalStats := by
  simp only [TensorMm.exclusionSelftest] at hcall
  split at hcall
  · simp at hcall
  obtain ⟨⟨go, front, s₁⟩, hc₁, hrest₁⟩ := bind_eq_done.mp hcall
  have h₁ := h.probeFront hM hc₁
  obtain ⟨⟨passed₂, back, s₂⟩, hc₂, hrest₂⟩ := bind_eq_done.mp hrest₁
  have h₂ := h₁.probeBack hM hc₂
  obtain ⟨⟨passed₃, s₃⟩, hc₃, hrest₃⟩ := bind_eq_done.mp hrest₂
  obtain ⟨⟨passed₄, s₄⟩, hc₄, hrest₄⟩ := bind_eq_done.mp hrest₃
  obtain ⟨passed₅, hc₅, hrest₅⟩ := bind_eq_done.mp hrest₄
  obtain ⟨passed₆, hc₆, hrest₆⟩ := bind_eq_done.mp hrest₅
  -- the status is `ok`, so every flag on the way was set
  simp only [done.injEq, Prod.mk.injEq] at hrest₆
  obtain ⟨hst, rfl⟩ := hrest₆
  obtain rfl : passed₆ = true := by
    cases passed₆ with
    | true => rfl
    | false => simp at hst
  obtain ⟨rfl, -⟩ := and_eq_true.mp hc₆
  obtain ⟨rfl, -⟩ := and_eq_true.mp hc₅
  obtain rfl : passed₃ = true := releaseProbe_passed hc₄
  have h₃ := h₂.releaseProbe hM hc₃
  have h₄ := h₃.releaseProbe hM hc₄
  obtain ⟨F, hinv⟩ := h₄.inv
  have hnil : live s₄ = [] := List.Perm.eq_nil h₄.live_perm
  refine ⟨⟨⟨F, hinv.represents, hinv.sound, ?_, ?_, hinv.countLe⟩, h₄.live_perm, by simp,
    h₄.poolBase, h₄.next⟩, rfl⟩
  · intro t ht
    have ht' : t ∈ live s₄ := ht
    rw [hnil] at ht'
    exact absurd ht' not_mem_nil
  · rw [hid]
    exact Nat.le_add_left _ _

end

/-! ## Initialisation -/

/-- The state the kernel image starts with. -/
structure Boot (s : MmState) : Prop where
  blockPoolNext : s.arena.blockPoolNext = 0
  freeLists : ∀ r, s.arena.freeLists r = none
  tensorCount : s.tensorCount = 0
  nextTensorId : s.nextTensorId = 1

/-- The zeroed image: no descriptor is in use and the first id is 1. -/
def bootState : MmState where
  arena := ⟨fun _ => ⟨0, 0, .kernel, false, false, 0, 0, none, none⟩, 0, fun _ => none⟩
  tensorTable _ := ⟨0, 0, 0, 0, ⟨0, [], [], 0⟩, .kernel, .shortTerm, false, false, false, false, 0⟩
  tensorCount := 0
  nextTensorId := 1
  globalStats := ⟨0, 0, 0, 0, 0, 0, 0, 0, 0, 0, 0, 0, 0, 0, 0⟩
  poolBase _ := 0
  exclusionReady := false
  excludedBytes := 0

theorem boot_bootState : Boot bootState := ⟨rfl, fun _ => rfl, rfl, rfl⟩

theorem Layout.tensorPoolStart_bounds (l : Layout) :
    l.tensorPoolStart % HUGE_PAGE_SIZE = 0 ∧ 0 < l.tensorPoolStart ∧
      l.tensorPoolStart ≤ AIOS_BOOTSTRAP_USER_BASE := by
  have h₁ := l.lo
  have h₂ := l.hi
  simp only [tensorPoolStart, HUGE_PAGE_SIZE, MB, AIOS_BOOTSTRAP_USER_BASE] at *
  omega

/-- A successful `tensor_mm_init` establishes the invariant, with nothing live, all managed bytes
counted as free and most descriptors left. -/
theorem tensorMmInit_inv {l : Layout} {s s' : MmState} (hb : Boot s)
    (hcall : tensorMmInit l s = .done (.ok, s')) :
    (∃ F, MmInv (managed s'.poolBase memoryPools) s' F) ∧
      (∀ p ∈ memoryPools, s'.poolBase p.2 + p.1 ≤ ADDR_LIMIT) ∧ live s' = [] ∧
      s'.globalStats = MemStats.banked (managedBytes (managed s'.poolBase memoryPools)) ∧
      s'.arena.blockPoolNext ≤ 14 := by
  obtain ⟨⟨st₁, s₁⟩, hc₁, hrest₁⟩ := bind_eq_done.mp hcall
  obtain ⟨hst₁, hrest₁⟩ := of_check id hrest₁
  obtain rfl := not_not.mp hst₁
  -- the pools
  have hrep : Represents s.arena fun _ => [] :=
    ⟨fun r => ⟨hb.freeLists r, trivial⟩, by simp, by simp, by simp [hb.blockPoolNext]⟩
  have hsound : Sound (managed s.poolBase []) (fun _ => []) [] := by
    refine ⟨⟨by simp, by simp, fun r => tiles_nil.mpr ?_, by simp⟩, by simp⟩
    simp [managed]
  obtain ⟨hmod, hpos, hle⟩ := l.tensorPoolStart_bounds
  obtain ⟨ht, hlim, F, hrep₁, hsound₁, hbank⟩ := initPools_spec hc₁ hrep hsound (by simp) (by decide)
    (by decide) hmod hpos (by
      simp only [AIOS_BOOTSTRAP_USER_BASE, MB] at hle
      simp only [memoryPools, MB, ADDR_LIMIT, map_cons, map_nil, sum_cons,
        sum_nil]
      omega) (by simp)
  rw [nil_append] at hlim hsound₁
  have hstats : s₁.globalStats =
      MemStats.banked (managedBytes (managed s₁.poolBase memoryPools)) := by
    rw [← hsound₁.toCovers.balance]
    exact hbank rfl
  have hcount : s₁.tensorCount = 0 := ht.count.trans hb.tensorCount
  have hnext : s₁.nextTensorId = 1 := ht.nextId.trans hb.nextTensorId
  have hlive : live s₁ = [] := by simp [live, hcount]
  have hM := addressable_managed hlim
  -- the probes
  have hprob : Probing (managed s₁.poolBase memoryPools) s₁.poolBase
      { s₁ with exclusionReady := true } [] 8 := by
    have hdesc := ht.next
    rw [hb.blockPoolNext] at hdesc
    refine ⟨⟨F, hrep₁, ?_, ?_, ?_, ?_⟩, ?_, by simp, rfl, hdesc⟩
    · exact hlive ▸ hsound₁
    · intro t htl
      have htl' : t ∈ live s₁ := htl
      simp [hlive] at htl'
    · rw [hnext]
      exact Nat.le_add_left _ _
    · rw [hcount]
      exact Nat.zero_le _
    · exact List.Perm.of_eq hlive
  obtain ⟨excluded, -, hrest₂⟩ := bind_eq_done.mp hrest₁
  obtain ⟨hex, hrest₂⟩ := of_check (fun _ => AiosStatus.noConfusion) hrest₂
  obtain ⟨⟨refused, s₂⟩, hc₂, hrest₃⟩ := bind_eq_done.mp hrest₂
  obtain ⟨hrefused, hrest₃⟩ := of_check (fun _ => AiosStatus.noConfusion) hrest₃
  obtain rfl : refused = true := by simpa using hrefused
  obtain rfl := hprob.probesRefused hM hc₂
  obtain ⟨⟨st₃, s₃⟩, hc₃, hrest₄⟩ := bind_eq_done.mp hrest₃
  obtain ⟨hst₃, hrest₄⟩ := of_check (fun _ => AiosStatus.noConfusion) hrest₄
  obtain rfl := not_not.mp hst₃
  cases hrest₄
  obtain ⟨hfin, hkept⟩ := hprob.exclusionSelftest hM hnext hc₃
  obtain ⟨F', hinv⟩ := hfin.inv
  rw [← hfin.poolBase] at hinv hlim hstats
  exact ⟨⟨F', hinv⟩, hlim, List.Perm.eq_nil hfin.live_perm, hkept.trans hstats, hfin.next⟩

end AiosKernel.TensorMm
