/-
# `AiosKernel.TensorMm.Room` — when an allocation finds room

`HasRoom` says what is available without the free lists: a range of the region's
pool that no live tensor holds.  Free blocks do not touch each other, so such a
range lies within one of them and `find_best_fit` finds a block.  Then only the
two static tables can stop an allocation (`RunInv.modelAlloc_of_room`): that of
the tensors, and that of the descriptors, which are never given back.
-/
import AiosKernel.TensorMm.Live

namespace AiosKernel.TensorMm

open Word Tiling

/-! ## Room -/

/-- The addresses of the range belong to the region, and no live tensor of it holds one. -/
def Vacant (s : MmState) (r : MemRegion) (sp : Span) : Prop :=
  ∀ x ∈ sp, x ∈ managed s.poolBase memoryPools r ∧ ∀ t ∈ live s, t.region = r → x ∉ t.span

/-- The region has an aligned range of this size that is vacant. -/
def HasRoom (s : MmState) (r : MemRegion) (size alignment : Nat) : Prop :=
  ∃ base, base % alignment = 0 ∧ Vacant s r ⟨base, size⟩

section

variable {s s' : MmState} {F : MemRegion → List FreeNode} {r : MemRegion} {id : Nat}
  {st : AiosStatus}

theorem MmInv.vacant_node {sp : Span} (h : MmInv (managed s.poolBase memoryPools) s F)
    (hpos : 0 < sp.size) (hv : Vacant s r sp) : ∃ n ∈ F r, ∀ x ∈ sp, x ∈ n.span := by
  have hgaps : ((F r).map FreeNode.span).Pairwise fun m n => m.fin < n.base :=
    List.pairwise_map.mpr (h.sound.gaps r)
  have hcover : ∀ x ∈ sp, ∃ n ∈ (F r).map FreeNode.span, x ∈ n := by
    intro x hx
    obtain ⟨i, hi, hmem⟩ := (h.mem_free_iff r x).mpr (hv x hx)
    rw [← h.represents.map_span r]
    exact ⟨_, List.mem_map_of_mem hi, hmem⟩
  obtain ⟨m, hm, hall⟩ := exists_span_of_gaps hgaps hpos hcover
  obtain ⟨n, hn, rfl⟩ := List.mem_map.mp hm
  exact ⟨n, hn, hall⟩

/-- A free block with an aligned vacant range in it passes the test of `find_best_fit`: the first
aligned address of the block is not behind the range. -/
theorem RunInv.fits_of_vacant {n : FreeNode} {base size k : Nat} (h : RunInv s)
    (hinv : MmInv (managed s.poolBase memoryPools) s F) (hn : n ∈ F r) (hk : k < 32)
    (hpos : 0 < size) (halign : base % 2 ^ k = 0) (hsub : ∀ x ∈ (⟨base, size⟩ : Span), x ∈ n.span) :
    Arena.fits (s.arena.blockPool n.ix) size (2 ^ k) = true := by
  have hfin := hinv.sound.toCovers.node_fin_le h.managed_lt hn
  have hfirst := hsub base ⟨le_rfl, by simp only [Span.fin]; omega⟩
  have hlast := hsub (base + (size - 1)) ⟨Nat.le_add_right _ _, by simp only [Span.fin]; omega⟩
  simp only [Span.mem_iff, Span.fin, ADDR_LIMIT] at hfirst hlast hfin
  obtain ⟨hle, hlt, hmod⟩ := @alignUp32_small n.span.base k hk (by simp only [ADDR_LIMIT]; omega)
  have hab : alignUp32 n.span.base (2 ^ k) ≤ base := by
    by_contra hc
    have hstep := Nat.ModEq.add_le_of_lt (hmod.trans halign.symm).symm (not_le.mp hc)
    omega
  refine (hinv.represents.fits_iff hn hk (by simp only [Span.fin, ADDR_LIMIT]; omega)
    (by omega)).mpr ⟨by simp only [Span.fin]; omega, excludes_of_clear hpos (by omega) ?_⟩
  intro x hx
  simp only [Span.mem_iff] at hx
  exact managed_clear x (hinv.node_managed hn x ⟨by omega, by simp only [Span.fin]; omega⟩)

/-- With room in the model region, `model_alloc` fails only if one of the tables is full. -/
theorem RunInv.modelAlloc_of_room (h : RunInv s) (hroom : HasRoom s .model (MB 64) HUGE_PAGE_SIZE)
    (hcount : s.tensorCount < MAX_TENSORS) (hnext : s.arena.blockPoolNext < MAX_BLOCKS) :
    ∃ s' t, modelAlloc (MB 64) s = .done ((.ok, some t), s') ∧
      Allocated (managed s.poolBase memoryPools) s .model s' t := by
  obtain ⟨F, hinv⟩ := h.inv
  obtain ⟨base, halign, hv⟩ := hroom
  have hsize : ∀ n ∈ F .model, n.span.size < UINT64_MAX := by
    intro n hn
    have hfin := hinv.sound.toCovers.node_fin_le h.managed_lt hn
    simp only [Span.fin, ADDR_LIMIT, UINT64_MAX] at *
    omega
  obtain ⟨n, hn, hsub⟩ := hinv.vacant_node (show 0 < MB 64 by decide) hv
  have hfits : Arena.fits (s.arena.blockPool n.ix) (MB 64) (2 ^ 21) = true :=
    h.fits_of_vacant hinv hn (by decide) (by decide) halign hsub
  have hcall : ∀ {q : AllocRequest} {block : Nat},
      q = ⟨alignUp64 (MB 64) HUGE_PAGE_SIZE, HUGE_PAGE_SIZE, 2, .longTerm, false, false⟩ →
      s.arena.findBestFit .model (MB 64) (2 ^ 21) = .done (some block) →
      modelAlloc (MB 64) s = TensorMm.allocFrom q .model (MB 64) (2 ^ 21) block s := by
    rintro q block rfl hfind
    refine (if_neg hcount.not_ge).trans ?_
    show (s.arena.findBestFit .model (MB 64) (2 ^ 21) >>= _) = _
    rw [hfind]
    rfl
  rcases hinv.represents.findBestFit .model (MB 64) (2 ^ 21) hsize with
    ⟨-, hnone⟩ | ⟨m, hm, hfind, hfit⟩
  · rw [hnone n hn] at hfits
    cases hfits
  · rw [hcall rfl hfind]
    rcases hinv.allocFrom h.managed_lt _ hm (by decide) (by decide) (by decide) (by decide) hcount hfit
      with ⟨-, hfull, -⟩ | hok
    · omega
    · exact hok

/-- With nothing live, the model region has room: its pool is longer than the hole and two blocks. -/
theorem hasRoom_of_empty (hlive : live s = []) : HasRoom s .model (MB 64) HUGE_PAGE_SIZE := by
  have hpool := @managed_eq (MB 512, .model) s.poolBase (by decide)
  have hvacant : ∀ base, (∀ x ∈ (⟨base, MB 64⟩ : Span), x ∈ clearRange (s.poolBase .model) (MB 512)) →
      Vacant s .model ⟨base, MB 64⟩ := by
    intro base hclear x hx
    exact ⟨hpool ▸ hclear x hx, by simp [hlive]⟩
  -- the first aligned address of the pool, or the end of the hole if that is behind it
  refine ⟨max ((s.poolBase .model + (HUGE_PAGE_SIZE - 1)) / HUGE_PAGE_SIZE * HUGE_PAGE_SIZE)
    AIOS_BOOTSTRAP_USER_END, ?_, hvacant _ fun x hx => mem_clearRange.mpr ?_⟩
  · simp only [HUGE_PAGE_SIZE, AIOS_BOOTSTRAP_USER_END, AIOS_BOOTSTRAP_USER_BASE,
      AIOS_BOOTSTRAP_USER_SIZE, MB]
    omega
  · simp only [Span.mem_iff, HUGE_PAGE_SIZE, AIOS_BOOTSTRAP_USER_END, AIOS_BOOTSTRAP_USER_BASE,
      AIOS_BOOTSTRAP_USER_SIZE, MB] at *
    omega

/-! ## The use of descriptors -/

theorem tensorFree_counts (hcall : tensorFree id s = .done (st, s')) :
    s'.arena.blockPoolNext = s.arena.blockPoolNext ∧ s'.tensorCount = s.tensorCount ∨
    s'.arena.blockPoolNext = s.arena.blockPoolNext + 1 ∧ s'.tensorCount + 1 = s.tensorCount := by
  cases tensorFree_freed hcall with
  | missing hfind | counted i hfind href | full i hfind href => exact .inl ⟨rfl, rfl⟩
  | gone i s' hfind href hp hblocks =>
    have hlen := hp.length_eq
    rw [List.length_cons, length_live, length_live] at hlen
    exact .inr ⟨hblocks, hlen.symm⟩

theorem modelFree_counts {fuel : Nat} (hcall : modelFree fuel s = .done (st, s')) :
    s'.tensorCount ≤ s.tensorCount ∧
      s'.arena.blockPoolNext + s'.tensorCount = s.arena.blockPoolNext + s.tensorCount := by
  refine modelFree_preserves (P := fun s' => s'.tensorCount ≤ s.tensorCount ∧
    s'.arena.blockPoolNext + s'.tensorCount = s.arena.blockPoolNext + s.tensorCount) ?_
    ⟨le_rfl, rfl⟩ hcall
  rintro i s₁ st₁ s₂ - - hfree ⟨hle, hsum⟩
  have hone := tensorFree_counts hfree
  omega

end

end AiosKernel.TensorMm
