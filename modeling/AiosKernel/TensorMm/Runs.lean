/-
# `AiosKernel.TensorMm.Runs` — every run keeps the regions sound; releases need a descriptor

`Reach` is a run of the manager after a successful `tensor_mm_init`.  The
invariant of `TensorMm.Calls` holds along every run; `RegionSound` reads it off
the descriptors and the table.

Descriptors are never given back, and a release takes one.  So a release works
exactly as long as `block_pool_next` has not reached its bound, and a server
that allocates and frees one tensor at a time gets there (`exists_exhausted`).
-/
import AiosKernel.TensorMm.Init

namespace AiosKernel.TensorMm

open Word DList Tiling List

/-- The states the manager can be in after a successful initialisation. -/
inductive Reach (l : Layout) : MmState → Prop where
  | init {s₀ s : MmState} : Boot s₀ → tensorMmInit l s₀ = .done (.ok, s) → Reach l s
  | alloc {s s' : MmState} {hasOut : Bool} {q : AllocRequest} {res : AllocResult} :
      Reach l s → q.InRange → tensorAllocAlignedProfiled hasOut q s = .done (res, s') → Reach l s'
  | free {s s' : MmState} {id : Nat} {st : AiosStatus} :
      Reach l s → tensorFree id s = .done (st, s') → Reach l s'
  | ref {s : MmState} (id : Nat) : Reach l s → Reach l (tensorRef id s).2
  | unref {s s' : MmState} {id : Nat} {st : AiosStatus} :
      Reach l s → tensorUnref id s = .done (st, s') → Reach l s'
  | modelFree {s s' : MmState} {fuel : Nat} {st : AiosStatus} :
      Reach l s → modelFree fuel s = .done (st, s') → Reach l s'

/-- The invariant of a run: the pools lie below the limit and the regions are sound. -/
structure RunInv (s : MmState) : Prop where
  limit : ∀ p ∈ memoryPools, s.poolBase p.2 + p.1 ≤ ADDR_LIMIT
  inv : ∃ F, MmInv (managed s.poolBase memoryPools) s F

theorem RunInv.managed_lt {s : MmState} (h : RunInv s) :
    Addressable (managed s.poolBase memoryPools) := addressable_managed h.limit

variable {F : MemRegion → List FreeNode} {M : MemRegion → Set Nat} {p : Nat × MemRegion}
  {r : MemRegion} {q : AllocRequest}

/-- A call that keeps the pools and the invariant for them keeps the run's invariant. -/
theorem RunInv.step {s s' : MmState} (h : RunInv s)
    (hinv : MmInv (managed s.poolBase memoryPools) s' F) (hbase : s'.poolBase = s.poolBase) :
    RunInv s' :=
  ⟨hbase ▸ h.limit, F, hbase ▸ hinv⟩

section

variable {s s' : MmState} {id : Nat} {st : AiosStatus}

theorem RunInv.of_alloc (h : RunInv s) {hasOut : Bool} {res : AllocResult}
    (hq : q.InRange) (hcall : tensorAllocAlignedProfiled hasOut q s = .done (res, s')) :
    RunInv s' := by
  obtain ⟨F, hinv⟩ := h.inv
  rcases hinv.alloc_returned h.managed_lt hq hcall with ⟨-, -, -, rfl⟩ | ⟨t, r, -, ha⟩
  · exact h
  · obtain ⟨F', hinv'⟩ := ha.inv
    exact h.step hinv' ha.poolBase

theorem RunInv.of_free (h : RunInv s) (hcall : tensorFree id s = .done (st, s')) : RunInv s' := by
  obtain ⟨F, hinv⟩ := h.inv
  obtain ⟨st₁, s₁, F', hc, hinv', hbase⟩ := hinv.tensorFree h.managed_lt id
  obtain ⟨-, rfl⟩ : st₁ = st ∧ s₁ = s' := by simpa [hc] using hcall
  exact h.step hinv' hbase

theorem RunInv.of_ref (h : RunInv s) (id : Nat) : RunInv (tensorRef id s).2 := by
  obtain ⟨F, hinv⟩ := h.inv
  obtain ⟨hinv', hbase⟩ := hinv.tensorRef id
  exact h.step hinv' hbase

theorem RunInv.of_unref (h : RunInv s) (hcall : tensorUnref id s = .done (st, s')) : RunInv s' := by
  obtain ⟨F, hinv⟩ := h.inv
  obtain ⟨st₁, s₁, F', hc, hinv', hbase⟩ := hinv.tensorUnref h.managed_lt id
  obtain ⟨-, rfl⟩ : st₁ = st ∧ s₁ = s' := by simpa [hc] using hcall
  exact h.step hinv' hbase

theorem RunInv.of_modelFree (h : RunInv s) {fuel : Nat}
    (hcall : modelFree fuel s = .done (st, s')) : RunInv s' := by
  refine modelFree_preserves (fun _ _ _ _ _ _ hfree h => ?_) h hcall
  exact h.of_free hfree

end

variable {l : Layout} {s : MmState}

theorem Reach.invariant (h : Reach l s) : RunInv s := by
  induction h with
  | init hb hcall =>
    obtain ⟨hinv, hlim, -⟩ := tensorMmInit_inv hb hcall
    exact ⟨hlim, hinv⟩
  | alloc _ hq hcall ih => exact ih.of_alloc hq hcall
  | free _ hcall ih => exact ih.of_free hcall
  | ref id _ ih => exact ih.of_ref id
  | unref _ hcall ih => exact ih.of_unref hcall
  | modelFree _ hcall ih => exact ih.of_modelFree hcall

/-! ## What every run guarantees -/

/-- The free list of region `r` runs through the descriptors `xs`, and together with the live
tensors of the region it is in order. -/
structure RegionSound (s : MmState) (size : Nat) (r : MemRegion) (xs : List Nat) : Prop where
  /-- `next` leads from the head through `xs` to null, and `prev` inverts it. -/
  links : IsList s.arena.next s.arena.prev (s.arena.freeLists r) xs
  /-- Free blocks and live tensors are disjoint and fill the pool up to the user hole. -/
  tiles : Tiles (xs.map (fun i => (s.arena.blockPool i).span) ++
      ((live s).filter fun t => t.region = r).map TensorAlloc.span)
    (clearRange (s.poolBase r) size)
  increasing : xs.Pairwise fun i j => (s.arena.blockPool i).base < (s.arena.blockPool j).base
  /-- No two neighbours of the list touch. -/
  notAdjacent : xs.IsChain fun i j =>
    (s.arena.blockPool i).base + (s.arena.blockPool i).size ≠ (s.arena.blockPool j).base
  freeAligned : ∀ i ∈ xs, Aligned (s.arena.blockPool i).span
  liveAligned : ∀ t ∈ live s, t.region = r → Aligned t.span

variable {base : MemRegion → Nat} {n : FreeNode}

theorem managed_eq (hp : p ∈ memoryPools) :
    managed base memoryPools p.2 = clearRange (base p.2) p.1 := by
  have hone : ∀ p ∈ memoryPools, ∀ q ∈ memoryPools, p.2 = q.2 → p = q := by decide
  ext x
  constructor
  · rintro ⟨size, hm, hx⟩
    obtain rfl : size = p.1 := congrArg Prod.fst (hone _ hm _ hp rfl)
    exact hx
  · intro hx
    exact ⟨p.1, hp, hx⟩

theorem Represents.map_span {a : Arena} (h : Represents a F) (r : MemRegion) :
    ((F r).map FreeNode.ix).map (fun i => (a.blockPool i).span) = (F r).map FreeNode.span := by
  rw [map_map]
  exact map_congr_left fun n hn => (h.holds r n hn).span

theorem MmInv.regionSound (h : MmInv M s F) (hM : M p.2 = clearRange (s.poolBase p.2) p.1) :
    RegionSound s p.1 p.2 ((F p.2).map FreeNode.ix) := by
  have hold := h.represents.holds p.2
  -- read a fact about neighbouring nodes off the descriptors
  have hgaps : ((F p.2).map FreeNode.ix).Pairwise fun i j =>
      (s.arena.blockPool i).span.fin < (s.arena.blockPool j).span.base := by
    refine pairwise_map.mpr ((h.sound.gaps p.2).imp_of_mem ?_)
    intro m n hm hn hg
    rw [(hold m hm).span, (hold n hn).span]
    exact hg
  refine ⟨h.represents.links p.2, ?_, ?_, ?_, ?_, ?_⟩
  · rw [h.represents.map_span, ← hM]
    exact h.sound.tiles p.2
  · exact hgaps.imp fun hg => (Nat.le_add_right _ _).trans_lt hg
  · exact (hgaps.imp fun hg => hg.ne).isChain
  · intro i hi
    obtain ⟨n, hn, rfl⟩ := mem_map.mp hi
    rw [(hold n hn).span]
    exact h.sound.freeAligned p.2 n hn
  · intro t ht _
    exact h.sound.liveAligned t ht

/-- In every state of every run each pool is tiled by its free blocks and its live tensors, the
free lists are sorted, fully merged and consistently linked, and live ids are distinct. -/
theorem tensor_runs_sound (h : Reach l s) :
    (∀ p ∈ memoryPools, ∃ xs, RegionSound s p.1 p.2 xs) ∧ ((live s).map TensorAlloc.id).Nodup := by
  obtain ⟨F, hinv⟩ := h.invariant.inv
  exact ⟨fun p hp => ⟨_, hinv.regionSound (managed_eq hp)⟩, hinv.sound.ids⟩

/-! ## One line -/

/-- An image that ends at 20 MiB. -/
def imageLayout : Layout := ⟨MB 20, by decide, by decide⟩

def lineRequest : AllocRequest where
  size := 64
  alignment := 64
  region := 1
  lifetime := .shortTerm
  realtimeCritical := false
  stochastic := false

theorem excludes_of_clear {base size : Nat} (hpos : 0 < size) (hlt : base + size < 2 ^ 64)
    (hclear : ∀ x ∈ (⟨base, size⟩ : Span),
      ¬ (AIOS_BOOTSTRAP_USER_BASE ≤ x ∧ x < AIOS_BOOTSTRAP_USER_END)) :
    allocationExcludesBootstrapUserHole base size = true := by
  have hsum : ¬ (size = 0 || base > UINT64_MAX - size) := by
    simp [UINT64_MAX]
    omega
  rw [allocationExcludesBootstrapUserHole, if_neg hsum]
  simp only [rangesOverlap, Bool.not_eq_true', Bool.and_eq_false_iff, decide_eq_false_iff_not]
  -- where the two would meet is an address of both
  have hmeet := hclear (max base AIOS_BOOTSTRAP_USER_BASE)
  simp only [Span.mem_iff] at hmeet
  have hhole : AIOS_BOOTSTRAP_USER_BASE < AIOS_BOOTSTRAP_USER_END := by decide
  omega

theorem managed_clear {pools : List (Nat × MemRegion)} :
    ∀ x ∈ managed base pools r, ¬ (AIOS_BOOTSTRAP_USER_BASE ≤ x ∧ x < AIOS_BOOTSTRAP_USER_END) := by
  rintro x ⟨size, -, hx⟩
  exact (mem_clearRange.mp hx).2.2

theorem MmInv.node_managed (h : MmInv M s F) (hn : n ∈ F r) : ∀ x ∈ n.span, x ∈ M r := fun x hx =>
  ((h.sound.tiles r).cover x).mpr ⟨n.span, mem_append_left _ (mem_map_of_mem hn), hx⟩

section

variable (hM : Addressable M)
  (hclear : ∀ x ∈ M r, ¬ (AIOS_BOOTSTRAP_USER_BASE ≤ x ∧ x < AIOS_BOOTSTRAP_USER_END))
  (h : MmInv M s F)
include hM hclear h

/-- The first line of a free block can be allocated: the base is aligned, and no managed address
lies in the hole. -/
theorem MmInv.line_fits (hn : n ∈ F r) :
    alignUp32 n.span.base (2 ^ 6) = n.span.base ∧
      Arena.fits (s.arena.blockPool n.ix) 64 (2 ^ 6) = true := by
  obtain ⟨-, hbmod, hpos, hsmod⟩ := h.sound.freeAligned r n hn
  have hfin := h.sound.toCovers.node_fin_le hM hn
  simp only [Span.fin, ADDR_LIMIT, TENSOR_ALIGN] at hfin hbmod hsmod
  obtain ⟨hle, hlt, hmod⟩ := @alignUp32_small n.span.base 6 (by decide)
    (by simp only [ADDR_LIMIT]; omega)
  have hab : alignUp32 n.span.base (2 ^ 6) = n.span.base := by omega
  refine ⟨hab, (h.represents.fits_iff hn (by decide) hfin hpos).mpr ?_⟩
  rw [hab]
  refine ⟨by simp only [Span.fin]; omega, excludes_of_clear (by decide) (by omega) ?_⟩
  intro x hx
  simp only [Span.mem_iff] at hx
  exact hclear x (h.node_managed hn x ⟨hx.1, by simp only [Span.fin]; omega⟩)

theorem MmInv.alloc_line (hq : q.Passes r (2 ^ 6)) (hline : alignUp32 q.size (2 ^ 6) = 64)
    (hne : F r ≠ []) (hcount : s.tensorCount < MAX_TENSORS) :
    ∃ s' t, tensorAllocAlignedProfiled true q s = .done ((.ok, some t), s') ∧
      Allocated M s r s' t := by
  have hsize : ∀ n ∈ F r, n.span.size < UINT64_MAX := by
    intro n hn
    have hfin := h.sound.toCovers.node_fin_le hM hn
    simp only [Span.fin, ADDR_LIMIT, UINT64_MAX] at *
    omega
  rw [hq.alloc_eq hcount, hline]
  rcases h.represents.findBestFit r 64 (2 ^ 6) hsize with ⟨-, hnone⟩ | ⟨n, hn, hfind, hfit⟩
  · obtain ⟨n, hn⟩ := exists_mem_of_ne_nil _ hne
    exact absurd (h.line_fits hM hclear hn).2 (by rw [hnone n hn]; decide)
  · rw [hfind]
    rcases h.allocFrom hM q hn (by decide) (by decide) (by decide) (by decide) hcount hfit
      with ⟨-, -, hlt⟩ | hok
    · rw [(h.line_fits hM hclear hn).1] at hlt
      exact absurd hlt (lt_irrefl _)
    · exact hok

end

theorem MmInv.free_ne_nil (hp : p ∈ memoryPools) (h : MmInv (managed s.poolBase memoryPools) s F)
    (hlive : live s = []) : F p.2 ≠ [] := by
  intro hnil
  have hlong : ∀ p ∈ memoryPools, MB 64 ≤ p.1 := by decide
  have hsize := hlong p hp
  have htiles := h.sound.tiles p.2
  rw [spansOf, hnil, hlive, managed_eq hp] at htiles
  have hempty := Set.eq_empty_iff_forall_notMem.mp (tiles_nil.mp htiles)
  have hbase := hempty (s.poolBase p.2)
  have hend := hempty AIOS_BOOTSTRAP_USER_END
  simp only [mem_clearRange, AIOS_BOOTSTRAP_USER_BASE, AIOS_BOOTSTRAP_USER_END,
    AIOS_BOOTSTRAP_USER_SIZE, MB, HUGE_PAGE_SIZE] at hbase hend hsize
  omega

/-- With nothing live, a request that is rounded to one line is served. -/
theorem Reach.serve_line (hs : Reach l s) (hlive : live s = []) (hp : p ∈ memoryPools)
    (hq : q.Passes p.2 (2 ^ 6)) (hline : alignUp32 q.size (2 ^ 6) = 64) :
    ∃ s' t, tensorAllocAlignedProfiled true q s = .done ((.ok, some t), s') ∧
      Allocated (managed s.poolBase memoryPools) s p.2 s' t := by
  obtain ⟨F, hinv⟩ := hs.invariant.inv
  have hcount : s.tensorCount = 0 := by simpa [live] using hlive
  exact hinv.alloc_line hs.invariant.managed_lt managed_clear hq hline (hinv.free_ne_nil hp hlive)
    (by rw [hcount]; decide)

theorem lineRequest_inRange : lineRequest.InRange := ⟨by decide, by decide⟩

theorem lineRequest_passes : lineRequest.Passes .tensor (2 ^ 6) :=
  ⟨by decide, rfl, by decide, by decide, by decide, by decide⟩

theorem Reach.line_call (hs : Reach l s) (hlive : live s = []) :
    ∃ s' t, tensorAllocAlignedProfiled true lineRequest s = .done ((.ok, some t), s') ∧
      Allocated (managed s.poolBase memoryPools) s .tensor s' t :=
  hs.serve_line hlive (show (MB 256, .tensor) ∈ memoryPools by decide) lineRequest_passes
    (by decide)

theorem exists_init : ∃ s, tensorMmInit imageLayout bootState = .done (.ok, s) := by
  have hret : (tensorMmInit imageLayout bootState >>= fun r => Outcome.done r.1) = .done .ok := by
    decide +kernel
  obtain ⟨⟨st, s⟩, hcall, hst⟩ := Outcome.bind_eq_done.mp hret
  obtain rfl : st = .ok := Outcome.done.inj hst
  exact ⟨s, hcall⟩

/-- Boot, then a line allocated, then the line freed. -/
structure LineRun (s₀ s₁ s₂ : MmState) (t : TensorAlloc) : Prop where
  boot : Reach imageLayout s₀
  empty : live s₀ = []
  allocated : Reach imageLayout s₁
  live_eq : live s₁ = [t]
  region : t.region = .tensor
  refCount : t.refCount = 1
  freed : Reach imageLayout s₂
  emptied : live s₂ = []
  poolBase : s₂.poolBase = s₀.poolBase
  next_ne : s₂.arena.blockPoolNext ≠ s₀.arena.blockPoolNext

theorem exists_lineRun : ∃ s₀ s₁ s₂ t, LineRun s₀ s₁ s₂ t := by
  obtain ⟨s₀, hinit⟩ := exists_init
  obtain ⟨-, -, hlive, -, hnext₀⟩ := tensorMmInit_inv boot_bootState hinit
  have hs₀ : Reach imageLayout s₀ := .init boot_bootState hinit
  obtain ⟨s₁, t, hcall, ha⟩ := hs₀.line_call hlive
  have hs₁ := hs₀.alloc lineRequest_inRange hcall
  have hlive₁ : live s₁ = [t] := by rw [ha.live_eq, hlive, nil_append]
  obtain ⟨F₁, hinv₁⟩ := hs₁.invariant.inv
  have hleft := alloc_next hcall
  rcases hinv₁.free_live hs₁.invariant.managed_lt (by simp [hlive₁]) ha.refCount.le with
    ⟨-, hfull⟩ | ⟨s₂, F₂, hfree, hinv₂, hperm, hbase, hnext, -⟩
  · simp only [MAX_BLOCKS] at hfull
    omega
  · have hle := ha.next_le
    rw [hlive₁] at hperm
    exact ⟨s₀, s₁, s₂, t, hs₀, hlive, hs₁, hlive₁, ha.region, ha.refCount, hs₁.free hfree,
      perm_nil.mp hperm.cons_inv.symm, hbase.trans ha.poolBase, by omega⟩

theorem exists_reach : ∃ s, Reach imageLayout s ∧ live s = [] := by
  obtain ⟨s, _, _, _, hrun⟩ := exists_lineRun
  exact ⟨s, hrun.boot, hrun.empty⟩

theorem tensor_runs_sound_line : ∃ s t, Reach imageLayout s ∧ live s = [t] ∧
    (∀ p ∈ memoryPools, ∃ xs, RegionSound s p.1 p.2 xs) ∧ ((live s).map TensorAlloc.id).Nodup := by
  obtain ⟨_, s, _, t, hrun⟩ := exists_lineRun
  exact ⟨s, t, hrun.allocated, hrun.live_eq, tensor_runs_sound hrun.allocated⟩

/-! ## Releasing a tensor -/

/-- From `s` to `s'` exactly the tensor `t` has left the table, and exactly its bytes have
joined the free blocks of its region. -/
structure Released (s : MmState) (t : TensorAlloc) (s' : MmState) : Prop where
  removed : (live s).Perm (t :: live s')
  returned : ∃ xs xs', IsList s.arena.next s.arena.prev (s.arena.freeLists t.region) xs ∧
    IsList s'.arena.next s'.arena.prev (s'.arena.freeLists t.region) xs' ∧
    ∀ x, (∃ i ∈ xs', x ∈ (s'.arena.blockPool i).span) ↔
      (∃ i ∈ xs, x ∈ (s.arena.blockPool i).span) ∨ x ∈ t.span

/-- The free bytes of a region are the managed ones that no live tensor holds. -/
theorem MmInv.mem_free_iff (h : MmInv M s F) (r : MemRegion) (x : Nat) :
    (∃ i ∈ (F r).map FreeNode.ix, x ∈ (s.arena.blockPool i).span) ↔
      x ∈ M r ∧ ∀ t ∈ live s, t.region = r → x ∉ t.span := by
  have htiles := h.sound.tiles r
  have hspan : (∃ i ∈ (F r).map FreeNode.ix, x ∈ (s.arena.blockPool i).span) ↔
      ∃ sp ∈ (F r).map FreeNode.span, x ∈ sp := by
    rw [← h.represents.map_span r]
    simp
  rw [hspan, htiles.cover]
  constructor
  · rintro ⟨sp, hsp, hx⟩
    refine ⟨⟨sp, mem_append_left _ hsp, hx⟩, ?_⟩
    intro t ht hr
    have hmem : t.span ∈ ((live s).filter fun t => t.region = r).map TensorAlloc.span :=
      mem_map_of_mem (mem_filter.mpr ⟨ht, by simpa using hr⟩)
    exact (pairwise_append.mp htiles.apart).2.2 sp hsp t.span hmem x hx
  · rintro ⟨⟨sp, hsp, hx⟩, hnot⟩
    rcases mem_append.mp hsp with hfree | hlive
    · exact ⟨sp, hfree, hx⟩
    · obtain ⟨t, ht, rfl⟩ := mem_map.mp hlive
      obtain ⟨hmem, hr⟩ := mem_filter.mp ht
      exact absurd hx (hnot t hmem (by simpa using hr))

theorem MmInv.released {F F' : MemRegion → List FreeNode} {s' : MmState} {t : TensorAlloc}
    (h : MmInv M s F) (h' : MmInv M s' F') (hperm : (live s).Perm (t :: live s')) :
    Released s t s' := by
  refine ⟨hperm, _, _, h.represents.links t.region, h'.represents.links t.region, ?_⟩
  intro x
  have hsub : ∀ u ∈ live s', u ∈ live s := fun u hu => hperm.mem_iff.mpr (mem_cons_of_mem t hu)
  rw [h.mem_free_iff, h'.mem_free_iff]
  constructor
  · rintro ⟨hM, hnot⟩
    by_cases hx : x ∈ t.span
    · exact .inr hx
    · refine .inl ⟨hM, fun u hu hr => ?_⟩
      rcases mem_cons.mp (hperm.mem_iff.mp hu) with rfl | hu'
      · exact hx
      · exact hnot u hu' hr
  · rintro (⟨hM, hnot⟩ | hx)
    · exact ⟨hM, fun u hu hr => hnot u (hsub u hu) hr⟩
    · -- the bytes of `t` are managed, and apart from those of every tensor that stays
      have htiles := (h.sound.toCovers.perm hperm).tiles t.region
      simp only [spansOf, filter_cons, decide_true, if_true, map_cons] at htiles
      refine ⟨(htiles.cover x).mpr ⟨t.span, by simp, hx⟩, fun u hu hr => ?_⟩
      have happ := (pairwise_cons.mp (pairwise_append.mp htiles.apart).2.1).1
      exact happ u.span (mem_map_of_mem (mem_filter.mpr ⟨hu, by simpa using hr⟩)) x hx

/-- In every state of every run, both ways to release a tensor with one reference succeed,
remove it and give its bytes back exactly if a descriptor is left. -/
theorem release_iff_descriptor_left {t : TensorAlloc} (h : Reach l s) (ht : t ∈ live s)
    (href : t.refCount = 1) :
    ((∃ s', tensorFree t.id s = .done (.ok, s') ∧ Released s t s') ↔
      s.arena.blockPoolNext < MAX_BLOCKS) ∧
    ((∃ s', tensorUnref t.id s = .done (.ok, s') ∧ Released s t s') ↔
      s.arena.blockPoolNext < MAX_BLOCKS) := by
  obtain ⟨F, hinv⟩ := h.invariant.inv
  have hM := h.invariant.managed_lt
  constructor
  · rcases hinv.free_live hM ht href.le with
      ⟨hc, hfull⟩ | ⟨s', F', hc, hinv', hp, -, hnext, -⟩
    · simp [hc, hfull]
    · have hcap := hinv'.represents.cap
      exact ⟨fun _ => by omega, fun _ => ⟨s', hc, hinv.released hinv' hp⟩⟩
  · rcases hinv.unref_live hM ht href with ⟨s', hc, hfull⟩ | ⟨s', F', hc, hinv', hp, hnext⟩
    · simp [hc, hfull]
    · have hcap := hinv'.represents.cap
      exact ⟨fun _ => by omega, fun _ => ⟨s', hc, hinv.released hinv' hp⟩⟩

/-- A line allocated right after the boot meets the conditions. -/
theorem release_iff_descriptor_left_boot : ∃ s t, Reach imageLayout s ∧ t ∈ live s ∧
    t.refCount = 1 ∧ ((∃ s', tensorFree t.id s = .done (.ok, s') ∧ Released s t s') ↔
      s.arena.blockPoolNext < MAX_BLOCKS) ∧
    ((∃ s', tensorUnref t.id s = .done (.ok, s') ∧ Released s t s') ↔
      s.arena.blockPoolNext < MAX_BLOCKS) := by
  obtain ⟨_, s, _, t, hrun⟩ := exists_lineRun
  have ht : t ∈ live s := by simp [hrun.live_eq]
  exact ⟨s, t, hrun.allocated, ht, hrun.refCount,
    release_iff_descriptor_left hrun.allocated ht hrun.refCount⟩

/-! ## Histories -/

/-- The free list of the region leads through blocks with these spans. -/
def FreeSpans (s : MmState) (r : MemRegion) (sps : List Span) : Prop :=
  ∃ xs, IsList s.arena.next s.arena.prev (s.arena.freeLists r) xs ∧
    sps = xs.map fun i => (s.arena.blockPool i).span

/-- **The free lists depend only on which bytes are in use**, not on the order of the calls that led
there. -/
theorem free_lists_history_independent {l' : Layout} {s' : MmState} (h : Reach l s)
    (h' : Reach l' s') (hbase : s.poolBase = s'.poolBase)
    (hlive : ∀ r x, (∃ t ∈ live s, t.region = r ∧ x ∈ t.span) ↔
      ∃ t ∈ live s', t.region = r ∧ x ∈ t.span) (r : MemRegion) :
    ∃ sps, FreeSpans s r sps ∧ FreeSpans s' r sps := by
  obtain ⟨F, hinv⟩ := h.invariant.inv
  obtain ⟨F', hinv'⟩ := h'.invariant.inv
  refine ⟨_, ⟨_, hinv.represents.links r, rfl⟩, _, hinv'.represents.links r, ?_⟩
  rw [hinv.represents.map_span, hinv'.represents.map_span]
  refine eq_of_gaps (pairwise_map.mpr (hinv.sound.gaps r)) (pairwise_map.mpr (hinv'.sound.gaps r))
    (forall_mem_map.mpr fun n hn => (hinv.sound.freeAligned r n hn).size_pos)
    (forall_mem_map.mpr fun n hn => (hinv'.sound.freeAligned r n hn).size_pos) fun x => ?_
  have hcover : (∃ i ∈ (F r).map FreeNode.ix, x ∈ (s.arena.blockPool i).span) ↔
      ∃ i ∈ (F' r).map FreeNode.ix, x ∈ (s'.arena.blockPool i).span := by
    rw [hinv.mem_free_iff, hinv'.mem_free_iff, hbase]
    exact and_congr_right fun _ => by simpa using not_congr (hlive r x)
  rw [← hinv.represents.map_span, ← hinv'.represents.map_span]
  simpa using hcover

/-- A line that was allocated and freed again leaves the free lists as they were at boot, though in
other descriptors. -/
theorem free_lists_history_independent_line : ∃ s s', Reach imageLayout s ∧ Reach imageLayout s' ∧
    s.arena.blockPoolNext ≠ s'.arena.blockPoolNext ∧
    ∀ r, ∃ sps, FreeSpans s r sps ∧ FreeSpans s' r sps := by
  obtain ⟨s', _, s, _, hrun⟩ := exists_lineRun
  exact ⟨s, s', hrun.freed, hrun.boot, hrun.next_ne, free_lists_history_independent hrun.freed
    hrun.boot hrun.poolBase fun _ _ => by simp [hrun.emptied, hrun.empty]⟩

/-! ## Running out of descriptors -/

/-- From any state with nothing live a run reaches one that has a tensor with one reference but
no descriptor: every line allocated and freed again costs one. -/
theorem exists_exhausted (hq : q.InRange) (hp : p ∈ memoryPools) (hpass : q.Passes p.2 (2 ^ 6))
    (hline : alignUp32 q.size (2 ^ 6) = 64) (d : Nat) : ∀ {s : MmState}, Reach l s → live s = [] →
    MAX_BLOCKS - s.arena.blockPoolNext = d →
    ∃ s t, Reach l s ∧ t ∈ live s ∧ t.refCount = 1 ∧ t.region = p.2 ∧
      s.arena.blockPoolNext = MAX_BLOCKS := by
  induction d using Nat.strong_induction_on with
  | _ d ih =>
    intro s hs hlive hd
    obtain ⟨s₁, t, hcall, ha⟩ := hs.serve_line hlive hp hpass hline
    have hs₁ := hs.alloc hq hcall
    have hlive₁ : live s₁ = [t] := by rw [ha.live_eq, hlive, nil_append]
    have ht : t ∈ live s₁ := by simp [hlive₁]
    have hle := ha.next_le
    obtain ⟨F₁, hinv₁⟩ := hs₁.invariant.inv
    rcases hinv₁.free_live hs₁.invariant.managed_lt ht ha.refCount.le with
      ⟨-, hfull⟩ | ⟨s₂, F₂, hfree, hinv₂, hperm, -, hnext, -⟩
    · exact ⟨s₁, t, hs₁, ht, ha.refCount, ha.region, hfull⟩
    · -- the line is free again, and at least one more descriptor is used
      have hlive₂ : live s₂ = [] := by
        rw [hlive₁] at hperm
        exact perm_nil.mp hperm.cons_inv.symm
      have hcap := hinv₂.represents.cap
      exact ih _ (by omega) (hs₁.free hfree) hlive₂ rfl

/-- After enough allocations and frees, a release reports that memory is exhausted. -/
theorem release_out_of_descriptors : ∃ s t, Reach imageLayout s ∧ t ∈ live s ∧ t.refCount = 1 ∧
    tensorFree t.id s = .done (.errNomem, s) ∧
    ∃ s', tensorUnref t.id s = .done (.errNomem, s') := by
  obtain ⟨s₀, hs₀, hlive⟩ := exists_reach
  obtain ⟨s, t, hs, ht, href, -, hfull⟩ := exists_exhausted lineRequest_inRange
    (show (MB 256, .tensor) ∈ memoryPools by decide) lineRequest_passes (by decide) _ hs₀ hlive rfl
  obtain ⟨F, hinv⟩ := hs.invariant.inv
  have hM := hs.invariant.managed_lt
  refine ⟨s, t, hs, ht, href, ?_, ?_⟩
  · rcases hinv.free_live hM ht href.le with
      ⟨hc, -⟩ | ⟨s', F', -, hinv', -, -, hnext, -⟩
    · exact hc
    · have := hinv'.represents.cap
      omega
  · rcases hinv.unref_live hM ht href with ⟨s', hc, -⟩ | ⟨s', F', -, hinv', -, hnext⟩
    · exact ⟨s', hc⟩
    · have := hinv'.represents.cap
      omega

end AiosKernel.TensorMm
