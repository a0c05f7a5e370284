/-
# `AiosKernel.TensorMm.Alloc` — `tensor_alloc_aligned_profiled` carves a tensor out of a node

The chosen node is cut at the aligned base (`Represents.splitFront`) and at the
end of the allocation (`Represents.splitBack`); what is between becomes the
tensor.  Either cut may be missing: the first because the base is aligned
already, the second because the rest is too small or no descriptor is left.
-/
import AiosKernel.TensorMm.Calls

namespace AiosKernel.TensorMm

open Word DList Tiling Outcome Arena List Function

/-! ## Alignment -/

variable {q : AllocRequest} {s s' : MmState} {hasOut : Bool} {x k : Nat}

theorem alignUp32_eq (hk : k ≤ 32) (hx : x + (2 ^ k - 1) < 2 ^ 64) :
    alignUp32 x (2 ^ k) = (x + (2 ^ k - 1)) % 2 ^ 32 / 2 ^ k * 2 ^ k := by
  rw [alignUp32, u64_eq hx, land_mask _ hk]

theorem two_pow_le (hk : k < 32) : 2 ^ k ≤ 2 ^ 31 :=
  Nat.pow_le_pow_right (by decide) (Nat.le_of_lt_succ hk)

theorem alignUp32_bounds (hk : k < 32) (hx : x + 2 ^ k ≤ 2 ^ 32) :
    x ≤ alignUp32 x (2 ^ k) ∧ alignUp32 x (2 ^ k) < x + 2 ^ k ∧ alignUp32 x (2 ^ k) % 2 ^ k = 0 := by
  have hpos : 0 < 2 ^ k := Nat.two_pow_pos k
  rw [alignUp32_eq hk.le (by omega), Nat.mod_eq_of_lt (by omega)]
  have hdm := Nat.div_add_mod (x + (2 ^ k - 1)) (2 ^ k)
  rw [Nat.mul_comm] at hdm
  refine ⟨by omega, by omega, Nat.mul_mod_left _ _⟩

theorem alignUp32_small (hk : k < 32) (hx : x < ADDR_LIMIT) :
    x ≤ alignUp32 x (2 ^ k) ∧ alignUp32 x (2 ^ k) < x + 2 ^ k ∧ alignUp32 x (2 ^ k) % 2 ^ k = 0 := by
  have hle := two_pow_le hk
  simp only [ADDR_LIMIT] at hx
  exact alignUp32_bounds hk (by omega)

theorem alignment_pow {n : Nat} (hn : n < 2 ^ 32) (hmin : TENSOR_ALIGN ≤ n)
    (hpow : n &&& (n - 1) = 0) : ∃ k, n = 2 ^ k ∧ 6 ≤ k ∧ k < 32 := by
  have hne : n ≠ 0 := by
    simp only [TENSOR_ALIGN] at hmin
    omega
  obtain ⟨k, rfl⟩ := (Nat.and_sub_one_eq_zero_iff_isPowerOfTwo hne).mp hpow
  refine ⟨k, rfl, ?_, (Nat.pow_lt_pow_iff_right (by decide)).mp hn⟩
  exact (Nat.pow_le_pow_iff_right (by decide)).mp (show 2 ^ 6 ≤ 2 ^ k from hmin)

theorem mod_align_of_mod_pow (hk : 6 ≤ k) (h : x % 2 ^ k = 0) : x % TENSOR_ALIGN = 0 := by
  have hdvd : 2 ^ 6 ∣ 2 ^ k := Nat.pow_dvd_pow 2 hk
  exact Nat.mod_eq_zero_of_dvd (Nat.dvd_trans hdvd (Nat.dvd_of_mod_eq_zero h))

/-! ## The two cuts -/

section

variable {a : Arena} {F : MemRegion → List FreeNode} {r : MemRegion}
  {as bs : List FreeNode} {n : FreeNode}

/-- A cut: the node `n` keeps the span `sp₂`, and a fresh descriptor with the span `sp₁` is
inserted where that belongs. -/
theorem Represents.cut {i : Nat} {xs ys : List FreeNode} (h : Represents a F)
    (hF : F r = as ++ n :: bs) (hfresh : ∀ r, ∀ m ∈ F r, m.ix ≠ i) (hi : i < a.blockPoolNext)
    (sp₁ sp₂ : Span) (f : MemBlock → MemBlock) (hspan : (f (a.blockPool n.ix)).span = sp₂)
    (htype : ∀ b, (f b).type = b.type) (hfree : ∀ b, (f b).isFree = b.isFree)
    (hnext : ∀ b, (f b).next = b.next) (hprev : ∀ b, (f b).prev = b.prev)
    (hxy : as ++ ⟨n.ix, sp₂⟩ :: bs = xs ++ ys) (hbefore : ∀ m ∈ xs, m.span.base < sp₁.base)
    (hafter : ∀ m ∈ ys.head?, sp₁.base < m.span.base) :
    ∃ a', ((a.setBlock i (MemBlock.asFree sp₁.base sp₁.size r)).setBlock n.ix f).freeListInsert
        i r = .done a' ∧
      Represents a' (update F r (xs ++ ⟨i, sp₁⟩ :: ys)) ∧
      a'.blockPoolNext = a.blockPoolNext := by
  have hni : n.ix ≠ i := hfresh r n (by simp [hF])
  have h₁ := h.setFresh hfresh (MemBlock.asFree sp₁.base sp₁.size r)
  have h₂ := h₁.setSpan hF sp₂ f
    (by rw [setBlock_blockPool, if_neg hni, hspan]) htype hfree hnext hprev
  have hself : ((a.setBlock i (MemBlock.asFree sp₁.base sp₁.size r)).setBlock n.ix f).blockPool i =
      MemBlock.asFree sp₁.base sp₁.size r (a.blockPool i) := by
    rw [setBlock_blockPool, if_neg hni.symm, setBlock_blockPool, if_pos rfl]
  have hins : Insertable ((a.setBlock i (MemBlock.asFree sp₁.base sp₁.size r)).setBlock n.ix f)
      (update F r (as ++ ⟨n.ix, sp₂⟩ :: bs)) r xs ys i :=
    { split := by rw [update_self, hxy]
      fresh := by
        refine forall_mem_update (fun m hm => ?_) fun r' _ => hfresh r'
        simp only [mem_append, mem_cons] at hm
        rcases hm with hm | rfl | hm
        · exact hfresh r m (by simp [hF, hm])
        · exact hni
        · exact hfresh r m (by simp [hF, hm])
      lt := hi
      type := by rw [hself]; rfl
      isFree := by rw [hself]; rfl
      before := fun m hm => by rw [hself]; exact hbefore m hm
      after := fun m hm => by rw [hself]; exact hafter m hm }
  obtain ⟨a', hcall, hrep, hnext', -⟩ := h₂.insert hins
  rw [hself, update_idem] at hrep
  exact ⟨a', hcall, hrep, hnext'⟩

theorem Represents.splitFront {ab : Nat} (h : Represents a F) (hF : F r = as ++ n :: bs)
    (hg : (as ++ n :: bs).Pairwise Gap) (hle : n.span.base ≤ ab) (hlt : ab < n.span.fin)
    (hfin : n.span.fin ≤ ADDR_LIMIT) :
    (a.splitFront n.ix ab r = .done none ∧ a.blockPoolNext = MAX_BLOCKS ∧ n.span.base < ab) ∨
    ∃ a' fs m, a.splitFront n.ix ab r = .done (some a') ∧
      Represents a' (update F r (as ++ fs ++ m :: bs)) ∧ m.ix = n.ix ∧
      m.span = ⟨ab, n.span.fin - ab⟩ ∧
      (fs = [] ∧ ab = n.span.base ∨
        n.span.base < ab ∧ fs = [⟨a.blockPoolNext, ⟨n.span.base, ab - n.span.base⟩⟩]) ∧
      a.blockPoolNext ≤ a'.blockPoolNext := by
  have hold := h.holds r n (by simp [hF])
  have hsub : sub64 ab (a.blockPool n.ix).base = ab - n.span.base := by
    rw [hold.base_eq]
    simp only [ADDR_LIMIT] at hfin
    exact sub64_eq hle (by omega)
  by_cases hzero : ab = n.span.base
  · refine .inr ⟨a, [], n, ?_, ?_, rfl, ?_, .inl ⟨rfl, hzero⟩, le_rfl⟩
    · simp only [Arena.splitFront, hsub]
      rw [if_pos (by omega)]
    · have : update F r (as ++ [] ++ n :: bs) = F := by
        rw [append_nil, ← hF, update_eq_self]
      rwa [this]
    · subst hzero
      simp [Span.fin]
  · have hpos : n.span.base < ab := Nat.lt_of_le_of_ne hle (Ne.symm hzero)
    have hne : ¬ ab - n.span.base = 0 := by omega
    rcases h.allocBlock with ⟨hnone, hfull⟩ | ⟨a₁, halloc, h₁, hnext₁, hfresh, hsame₁⟩
    · refine .inl ⟨?_, hfull, hpos⟩
      simp [Arena.splitFront, hsub, hne, hnone]
    · -- the node gives up its lower part, which is inserted right before it
      have hni : n.ix ≠ a.blockPoolNext := hfresh r n (by simp [hF])
      obtain ⟨hga, -, hgan⟩ := pairwise_append.mp hg
      obtain ⟨a', hcall, hrep, hnext'⟩ := h₁.cut hF hfresh (by omega)
        ⟨n.span.base, ab - n.span.base⟩ ⟨ab, n.span.fin - ab⟩
        (fun b => { b with base := ab, size := sub64 b.size (ab - n.span.base) })
        (by
          rw [hsame₁ n.ix hni]
          simp only [MemBlock.span, hold.size_eq]
          simp only [Span.fin, ADDR_LIMIT] at hfin hlt ⊢
          rw [sub64_eq (by omega) (by omega)]
          congr 1
          omega)
        (fun _ => rfl) (fun _ => rfl) (fun _ => rfl) (fun _ => rfl) rfl
        (fun m hm => by
          have := hgan m hm n (by simp)
          simp only [Gap, Span.fin] at this ⊢
          omega)
        (fun m hm => by
          cases hm
          exact hpos)
      refine .inr ⟨a', [⟨a.blockPoolNext, ⟨n.span.base, ab - n.span.base⟩⟩],
        ⟨n.ix, ⟨ab, n.span.fin - ab⟩⟩, ?_, ?_, rfl, rfl, .inr ⟨hpos, rfl⟩, by omega⟩
      · simp only [Arena.splitFront, hsub, if_neg hne, halloc]
        rw [hold.base_eq, hcall]
        rfl
      · rw [append_assoc, singleton_append]
        exact hrep

theorem Represents.splitBack {size : Nat} (h : Represents a F) (hF : F r = as ++ n :: bs)
    (hbefore : ∀ m ∈ as, m.span.base ≤ n.span.base) (hafter : ∀ m ∈ bs, Gap n m)
    (hle : size ≤ n.span.size) (hpos : 0 < size) (hfin : n.span.fin ≤ ADDR_LIMIT) :
    ∃ a' gs m, a.splitBack n.ix size r = .done a' ∧
      Represents a' (update F r (as ++ m :: (gs ++ bs))) ∧ m.ix = n.ix ∧
      (gs = [] ∧ m = n ∨ size < n.span.size ∧ m.span = ⟨n.span.base, size⟩ ∧
        ∃ j, gs = [⟨j, ⟨n.span.base + size, n.span.size - size⟩⟩]) ∧
      a.blockPoolNext ≤ a'.blockPoolNext := by
  have hold := h.holds r n (by simp [hF])
  simp only [Span.fin, ADDR_LIMIT] at hfin
  have hsub : sub64 (a.blockPool n.ix).size size = n.span.size - size := by
    rw [hold.size_eq]
    exact sub64_eq hle (by omega)
  have hsame : ∀ a' : Arena, a' = a → Represents a' (update F r (as ++ n :: ([] ++ bs))) := by
    rintro a' rfl
    rw [nil_append, ← hF, update_eq_self]
    exact h
  by_cases hrest : TENSOR_ALIGN < n.span.size - size
  · rcases h.allocBlock with ⟨hnone, -⟩ | ⟨a₁, halloc, h₁, hnext₁, hfresh, hsame₁⟩
    · refine ⟨a, [], n, ?_, hsame a rfl, rfl, .inl ⟨rfl, rfl⟩, le_rfl⟩
      simp [Arena.splitBack, hsub, hrest, hnone]
    · -- the node gives up its upper part, which is inserted right after it
      have hni : n.ix ≠ a.blockPoolNext := hfresh r n (by simp [hF])
      obtain ⟨a', hcall, hrep, hnext'⟩ := @Represents.cut a₁ F r as bs n a.blockPoolNext
        (as ++ [⟨n.ix, ⟨n.span.base, size⟩⟩]) bs h₁ hF hfresh (by omega)
        ⟨n.span.base + size, n.span.size - size⟩ ⟨n.span.base, size⟩
        (fun b => { b with size := size })
        (by rw [hsame₁ n.ix hni]; simp only [MemBlock.span, hold.base_eq])
        (fun _ => rfl) (fun _ => rfl) (fun _ => rfl) (fun _ => rfl) (by simp)
        (forall_mem_append.mpr
          ⟨fun m hm => (hbefore m hm).trans_lt (Nat.lt_add_of_pos_right hpos),
            forall_mem_singleton.mpr (Nat.lt_add_of_pos_right hpos)⟩)
        (fun m hm => by
          have := hafter m (mem_of_mem_head? hm)
          simp only [Gap, Span.fin] at this ⊢
          omega)
      refine ⟨a', [⟨a.blockPoolNext, ⟨n.span.base + size, n.span.size - size⟩⟩],
        ⟨n.ix, ⟨n.span.base, size⟩⟩, ?_, ?_, rfl, .inr ⟨by omega, rfl, _, rfl⟩, by omega⟩
      · simp only [Arena.splitBack, hsub, if_pos hrest, halloc, hsame₁ n.ix hni]
        rw [hold.base_eq, u64_eq (by omega)]
        exact hcall
      · simpa using hrep
  · refine ⟨a, [], n, ?_, hsame a rfl, rfl, .inl ⟨rfl, rfl⟩, le_rfl⟩
    simp [Arena.splitBack, hsub, hrest]

/-- What a node that fits offers: room for the allocation from the aligned base on, clear of
the user hole. -/
theorem Represents.fits_iff {size k : Nat} (h : Represents a F) (hn : n ∈ F r) (hk : k < 32)
    (hfin : n.span.fin ≤ ADDR_LIMIT) (hpos : 0 < n.span.size) :
    Arena.fits (a.blockPool n.ix) size (2 ^ k) = true ↔
      alignUp32 n.span.base (2 ^ k) + size ≤ n.span.fin ∧
      allocationExcludesBootstrapUserHole (alignUp32 n.span.base (2 ^ k)) size = true := by
  have hold := h.holds r n hn
  simp only [Span.fin, ADDR_LIMIT] at hfin
  obtain ⟨hle, hlt, -⟩ := @alignUp32_small n.span.base k hk (by simp only [ADDR_LIMIT]; omega)
  have hpow := two_pow_le hk
  have hsub : sub64 (alignUp32 n.span.base (2 ^ k)) n.span.base =
      alignUp32 n.span.base (2 ^ k) - n.span.base := sub64_eq hle (by omega)
  have hroom : n.span.base ≤ UINT64_MAX - (2 ^ k - 1) := by
    simp only [UINT64_MAX]
    omega
  simp only [Arena.fits, hold.isFree, hold.base_eq, hold.size_eq, hsub, Bool.true_and,
    Bool.and_eq_true, decide_eq_true_eq, hroom, and_true, Span.fin]
  constructor
  · rintro ⟨-, ⟨h₁, h₂⟩, h₃⟩
    exact ⟨by omega, h₃⟩
  · rintro ⟨h₁, h₂⟩
    exact ⟨by omega, ⟨by omega, by omega⟩, h₂⟩

end

theorem carved_of_cuts {n m₁ m₂ : FreeNode} {fs gs : List FreeNode} {ab size i : Nat}
    (hal : Aligned n.span) (hle : n.span.base ≤ ab) (hab : ab % TENSOR_ALIGN = 0)
    (hpos : 0 < size) (hmod : size % TENSOR_ALIGN = 0) (hroom : ab + size ≤ n.span.fin)
    (hspan : m₁.span = ⟨ab, n.span.fin - ab⟩)
    (hfs : fs = [] ∧ ab = n.span.base ∨
      n.span.base < ab ∧ fs = [⟨i, ⟨n.span.base, ab - n.span.base⟩⟩])
    (hgs : gs = [] ∧ m₂ = m₁ ∨ size < m₁.span.size ∧ m₂.span = ⟨m₁.span.base, size⟩ ∧
      ∃ j, gs = [⟨j, ⟨m₁.span.base + size, m₁.span.size - size⟩⟩]) :
    Carved n fs m₂.span gs := by
  obtain ⟨hbp, hbm, hsp, hsm⟩ := hal
  rw [hspan] at hgs
  simp only [Span.fin, TENSOR_ALIGN] at *
  -- the lower piece
  have hfront : Abut n.span.base (fs.map FreeNode.span) ab ∧ (∀ m ∈ fs, Aligned m.span) ∧
      fs.length ≤ 1 := by
    rcases hfs with ⟨rfl, rfl⟩ | ⟨hlt, rfl⟩
    · exact ⟨rfl, by simp, by simp⟩
    · refine ⟨⟨rfl, ?_⟩, fun m hm => ?_, by simp⟩
      · show n.span.base + (ab - n.span.base) = ab
        omega
      · obtain rfl := mem_singleton.mp hm
        exact ⟨hbp, hbm, by show 0 < ab - n.span.base; omega,
          by show (ab - n.span.base) % 64 = 0; omega⟩
  -- the allocation and the upper piece
  have hback : m₂.span.base = ab ∧ Aligned m₂.span ∧
      Abut m₂.span.fin (gs.map FreeNode.span) (n.span.base + n.span.size) ∧
      (∀ m ∈ gs, Aligned m.span) ∧ gs.length ≤ 1 := by
    rcases hgs with ⟨rfl, rfl⟩ | ⟨hlt, hm₂, j, rfl⟩
    · rw [hspan]
      refine ⟨rfl, ⟨?_, hab, ?_, ?_⟩, ?_, by simp, by simp⟩
      · show 0 < ab
        omega
      · show 0 < n.span.base + n.span.size - ab
        omega
      · show (n.span.base + n.span.size - ab) % 64 = 0
        omega
      · show ab + (n.span.base + n.span.size - ab) = n.span.base + n.span.size
        omega
    · rw [hm₂]
      refine ⟨rfl, ⟨?_, hab, hpos, hmod⟩, ⟨rfl, ?_⟩, fun m hm => ?_, by simp⟩
      · show 0 < ab
        omega
      · show ab + size + (n.span.base + n.span.size - ab - size) = n.span.base + n.span.size
        omega
      · obtain rfl := mem_singleton.mp hm
        refine ⟨?_, ?_, ?_, ?_⟩
        · show 0 < ab + size
          omega
        · show (ab + size) % 64 = 0
          omega
        · show 0 < n.span.base + n.span.size - ab - size
          omega
        · show (n.span.base + n.span.size - ab - size) % 64 = 0
          omega
  obtain ⟨hf₁, hf₂, hf₃⟩ := hfront
  obtain ⟨hb₁, hb₂, hb₃, hb₄, hb₅⟩ := hback
  exact ⟨abut_append.mpr ⟨ab, hf₁, hb₁, hb₃⟩, hf₂, hb₂, hb₄, hf₃, hb₅⟩

/-! ## The checks -/

/-- The request passes the checks that precede the search: its region is `r`, and its
alignment, raised to 64, is `al`. -/
structure AllocRequest.Passes (q : AllocRequest) (r : MemRegion) (al : Nat) : Prop where
  size_ne : q.size ≠ 0
  region : MemRegion.ofCode? q.region = some r
  align : al = max q.alignment TENSOR_ALIGN
  pow : al &&& (al - 1) = 0
  noOverflow : q.size ≤ UINT64_MAX - (al - 1)
  rounded : alignUp32 q.size al ≠ 0

theorem alloc_checks (hasOut : Bool) (q : AllocRequest) (s : MmState) :
    (∃ st, st ≠ .ok ∧ (st = .errNomem → MAX_TENSORS ≤ s.tensorCount) ∧
      tensorAllocAlignedProfiled hasOut q s = .done ((st, none), s)) ∨
    ∃ r al, q.Passes r al ∧ s.tensorCount < MAX_TENSORS ∧
      tensorAllocAlignedProfiled hasOut q s =
        (s.arena.findBestFit r (alignUp32 q.size al) al >>= fun found =>
          found.elim (.done ((.errNomem, none), s)) fun block =>
            allocFrom q r (alignUp32 q.size al) al block s) := by
  unfold tensorAllocAlignedProfiled
  split
  · exact .inl ⟨.errInval, by decide, by simp, rfl⟩
  rename_i hargs
  simp only [Bool.or_eq_true, decide_eq_true_eq, not_or] at hargs
  split
  · exact .inl ⟨.errInval, by decide, by simp, rfl⟩
  rename_i r hregion
  split
  · rename_i hfull
    exact .inl ⟨.errNomem, by decide, fun _ => hfull, rfl⟩
  rename_i hcount
  simp only []
  generalize hal : (if q.alignment < TENSOR_ALIGN then TENSOR_ALIGN else q.alignment) = al
  split
  · exact .inl ⟨.errInval, by decide, by simp, rfl⟩
  rename_i hpow
  split
  · exact .inl ⟨.errOverflow, by decide, by simp, rfl⟩
  rename_i hover
  split
  · exact .inl ⟨.errOverflow, by decide, by simp, rfl⟩
  rename_i hsize
  have hmax : al = max q.alignment TENSOR_ALIGN := by
    rw [← hal]
    split <;> omega
  refine .inr ⟨r, al, ⟨hargs.2, hregion, hmax, by simpa using hpow, not_lt.mp hover, hsize⟩,
    not_le.mp hcount, congrArg _ (funext fun found => ?_)⟩
  cases found <;> rfl

variable {res : AllocResult} {r : MemRegion} {al : Nat} {t : TensorAlloc}

theorem AllocRequest.Passes.alloc_eq (h : q.Passes r al) (hcount : s.tensorCount < MAX_TENSORS) :
    tensorAllocAlignedProfiled true q s =
      (s.arena.findBestFit r (alignUp32 q.size al) al >>= fun found =>
        found.elim (.done ((.errNomem, none), s)) fun block =>
          allocFrom q r (alignUp32 q.size al) al block s) := by
  have hal : (if q.alignment < TENSOR_ALIGN then TENSOR_ALIGN else q.alignment) = al := by
    rw [h.align]
    split <;> omega
  simp only [tensorAllocAlignedProfiled, hal, h.region, h.size_ne, h.pow, h.rounded,
    hcount.not_ge, h.noOverflow.not_gt, Bool.not_true, Bool.false_or, decide_false,
    Bool.false_eq_true, ne_eq, not_true_eq_false, if_false]
  refine congrArg _ (funext fun found => ?_)
  cases found <;> rfl

theorem AllocRequest.Passes.exists_pow (h : q.Passes r al) (hq : q.InRange) :
    ∃ k, al = 2 ^ k ∧ 6 ≤ k ∧ k < 32 := by
  have hlt : al < 2 ^ 32 := by
    rw [h.align]
    exact Nat.max_lt.mpr ⟨hq.2, by decide⟩
  exact alignment_pow hlt (h.align ▸ le_max_right _ _) h.pow

theorem alignUp32_mod (x : Nat) (hk : k ≤ 32) : alignUp32 x (2 ^ k) % 2 ^ k = 0 := by
  rw [alignUp32, land_mask _ hk]
  exact Nat.mul_mod_left _ _

/-! ## The call -/

section

variable {M : MemRegion → Set Nat} {s : MmState} {F : MemRegion → List FreeNode}
  {r : MemRegion} {as bs : List FreeNode} {n : FreeNode}

/-- Entering the tensor for the node `m`: the node leaves its list, the record is appended. -/
theorem MmInv.enter {m : FreeNode} {fs gs : List FreeNode} {a : Arena} (h : MmInv M s F)
    (hF : F r = as ++ n :: bs) (hc : Carved n fs m.span gs) (q : AllocRequest)
    (hrep : Represents a (update F r (as ++ fs ++ m :: (gs ++ bs))))
    (hnext : s.arena.blockPoolNext ≤ a.blockPoolNext) (hcount : s.tensorCount < MAX_TENSORS) :
    ∃ t F', MmInv M (enterTensor q r m.ix { s with arena := a }) F' ∧
      live (enterTensor q r m.ix { s with arena := a }) = live s ++ [t] ∧
      t.refCount = 1 ∧ t.region = r ∧ t.id = s.nextTensorId ∧
      (enterTensor q r m.ix { s with arena := a }).tensorTable s.tensorCount = t ∧
      (enterTensor q r m.ix { s with arena := a }).arena.blockPoolNext = a.blockPoolNext := by
  obtain ⟨hrem, hremNext, hremSpan⟩ := hrep.remove (update_self ..)
  rw [update_idem, append_assoc, ← append_assoc fs, ← append_assoc] at hrem
  -- the descriptor is on no list any more
  have hfresh : ∀ r', ∀ e ∈ update F r (as ++ (fs ++ gs) ++ bs) r', e.ix ≠ m.ix := by
    refine forall_mem_update (fun e he => ?_) fun r' hr e he => ?_
    · refine hrep.ix_notMem (update_self ..) e ?_
      simpa [or_assoc] using he
    · refine hrep.ix_ne hr (by rwa [update_of_ne hr]) ?_
      simp
  let t := newTensor q r { s with arena := a } ((a.freeListRemove m.ix r).blockPool m.ix)
  have htspan : t.span = m.span := hremSpan
  have hlive : live (enterTensor q r m.ix { s with arena := a }) = live s ++ [t] := by
    simp only [live, enterTensor, range_succ, map_append, map_cons, map_nil,
      update_self]
    refine congrArg (· ++ [t]) (map_congr_left fun j hj => update_of_ne ?_ _ _)
    exact (mem_range.mp hj).ne
  have hid : t.id ∉ (live s).map TensorAlloc.id := by
    intro hm
    obtain ⟨u, hu, he⟩ := mem_map.mp hm
    exact lt_irrefl _ (he ▸ h.idsLt u hu)
  have hsound : Sound M (update F r (as ++ (fs ++ gs) ++ bs)) (t :: live s) :=
    h.sound.carve hF (htspan ▸ hc) hid
  have hb := h.idsBound
  have hcap := hrep.cap
  have hword : u32 (s.nextTensorId + 1) = s.nextTensorId + 1 := by
    simp only [MAX_TENSORS, MAX_BLOCKS] at hcount hcap
    exact u32_eq (by omega)
  have harena := hrem.setFresh hfresh fun b => { b with tensorId := t.id, isFree := false }
  refine ⟨t, _, ⟨harena, ?_, ?_, ?_, hcount⟩, hlive, rfl, rfl, rfl, update_self ..,
    hremNext⟩
  · rw [hlive]
    exact hsound.perm (perm_append_singleton _ _).symm
  · rw [hlive]
    show ∀ u ∈ live s ++ [t], u.id < u32 (s.nextTensorId + 1)
    rw [hword]
    exact forall_mem_append.mpr
      ⟨fun u hu => Nat.lt_succ_of_lt (h.idsLt u hu), forall_mem_singleton.mpr (Nat.lt_succ_self _)⟩
  · show u32 (s.nextTensorId + 1) ≤ s.tensorCount + 1 + (a.freeListRemove m.ix r).blockPoolNext + 1
    omega

/-- The result of an allocation from a node that fits. -/
structure Allocated (M : MemRegion → Set Nat) (s : MmState) (r : MemRegion) (s' : MmState)
    (t : TensorAlloc) : Prop where
  inv : ∃ F', MmInv M s' F'
  live_eq : live s' = live s ++ [t]
  refCount : t.refCount = 1
  region : t.region = r
  id : t.id = s.nextTensorId
  poolBase : s'.poolBase = s.poolBase
  next_le : s.arena.blockPoolNext ≤ s'.arena.blockPoolNext

section

variable (hM : Addressable M) (h : MmInv M s F)
include hM h

/-- From a node that fits, the allocation succeeds unless a cut at the aligned base is needed
and no descriptor is left for it. -/
theorem MmInv.allocFrom {size k : Nat}
    (q : AllocRequest) (hn : n ∈ F r) (hk : k < 32) (hk6 : 6 ≤ k) (hpos : 0 < size)
    (hmod : size % 2 ^ k = 0) (hcount : s.tensorCount < MAX_TENSORS)
    (hfit : Arena.fits (s.arena.blockPool n.ix) size (2 ^ k) = true) :
    (allocFrom q r size (2 ^ k) n.ix s = .done ((.errNomem, none), s) ∧
      s.arena.blockPoolNext = MAX_BLOCKS ∧ n.span.base < alignUp32 n.span.base (2 ^ k)) ∨
    ∃ s' t, allocFrom q r size (2 ^ k) n.ix s = .done ((.ok, some t), s') ∧
      Allocated M s r s' t := by
  obtain ⟨as, bs, hF⟩ := append_of_mem hn
  have hold := h.represents.holds r n hn
  have hal := h.sound.freeAligned r n hn
  have hfin := h.sound.toCovers.node_fin_le hM hn
  have hg := h.sound.gaps r
  rw [hF] at hg
  obtain ⟨hroom, hhole⟩ := (h.represents.fits_iff hn hk hfin hal.size_pos).mp hfit
  have hbase : n.span.base < ADDR_LIMIT := by
    have := hal.size_pos
    simp only [Span.fin] at hfin
    omega
  obtain ⟨hle, -, habmod⟩ := alignUp32_small hk hbase
  generalize hab : alignUp32 n.span.base (2 ^ k) = ab at *
  have hab64 := mod_align_of_mod_pow hk6 habmod
  have hsize64 := mod_align_of_mod_pow hk6 hmod
  -- the checks before the cuts pass
  have hstart : TensorMm.allocFrom q r size (2 ^ k) n.ix s = carveTensor q r size ab n.ix s := by
    have hover : ¬ UINT64_MAX - (2 ^ k - 1) < n.span.base := by
      have hpow := two_pow_le hk
      simp only [UINT64_MAX, ADDR_LIMIT] at *
      omega
    simp only [TensorMm.allocFrom, hold.base_eq, if_neg hover, hab, hhole, Bool.not_true,
      Bool.false_eq_true, if_false]
  rw [hstart]
  rcases h.represents.splitFront hF hg hle (by omega) hfin with
    ⟨hfront, hfull, hlt⟩ | ⟨a₁, fs, m₁, hfront, h₁, hix₁, hspan₁, hfs, hnext₁⟩
  · exact .inl ⟨by simp only [carveTensor, hfront, Outcome.done_bind], hfull, hlt⟩
  · right
    have hF₁ : update F r (as ++ fs ++ m₁ :: bs) r = (as ++ fs) ++ m₁ :: bs :=
      update_self ..
    have hsz₁ : m₁.span.size = n.span.fin - ab := by rw [hspan₁]
    have hb₁ : m₁.span.base = ab := by rw [hspan₁]
    obtain ⟨-, hgn, hgan⟩ := pairwise_append.mp hg
    have hbefore : ∀ m ∈ as ++ fs, m.span.base ≤ m₁.span.base := by
      intro m hm
      rw [hb₁]
      rcases mem_append.mp hm with hm | hm
      · have := hgan m hm n (by simp)
        simp only [Gap, Span.fin] at this
        omega
      · rcases hfs with ⟨rfl, -⟩ | ⟨-, rfl⟩
        · simp at hm
        · obtain rfl := mem_singleton.mp hm
          exact hle
    have hfin₁ : m₁.span.fin = n.span.fin := by
      simp only [Span.fin] at *
      omega
    have hafter : ∀ m ∈ bs, Gap m₁ m := by
      intro m hm
      have := (pairwise_cons.mp hgn).1 m hm
      simp only [Gap] at this ⊢
      omega
    obtain ⟨a₂, gs, m₂, hback, h₂, hix₂, hgs, hnext₂⟩ := @Represents.splitBack a₁ _ r _ _ _
      size h₁ hF₁ hbefore hafter (by omega) hpos (by omega)
    rw [update_idem] at h₂
    have hcarved : Carved n fs m₂.span gs :=
      carved_of_cuts hal hle hab64 hpos hsize64 hroom hspan₁ hfs hgs
    obtain ⟨t, F', hinv, hlive, href, hreg, hid, htab, hnext₃⟩ :=
      h.enter hF hcarved q h₂ (hnext₁.trans hnext₂) hcount
    refine ⟨_, t, ?_, ⟨⟨F', hinv⟩, hlive, href, hreg, hid, rfl, ?_⟩⟩
    · have hix : m₂.ix = n.ix := hix₂.trans hix₁
      rw [hix] at htab ⊢
      rw [hix₁] at hback
      simp only [carveTensor, hfront, Outcome.done_bind, hback]
      rw [← htab]
      rfl
    · rw [hnext₃]
      exact hnext₁.trans hnext₂

/-- `tensor_alloc_aligned_profiled` returns: either with an error and the state as it was, or
with a tensor carved out of its region. -/
theorem MmInv.alloc (hasOut : Bool) (q : AllocRequest) (hq : q.InRange) :
    (∃ st, st ≠ .ok ∧ tensorAllocAlignedProfiled hasOut q s = .done ((st, none), s)) ∨
    ∃ s' t r, tensorAllocAlignedProfiled hasOut q s = .done ((.ok, some t), s') ∧
      Allocated M s r s' t := by
  rcases alloc_checks hasOut q s with ⟨st, hst, -, hcall⟩ | ⟨r, al, hpass, hcount, hcall⟩
  · exact .inl ⟨st, hst, hcall⟩
  rw [hcall]
  obtain ⟨k, rfl, hk6, hk⟩ := hpass.exists_pow hq
  have hmod := alignUp32_mod q.size hk.le
  have hnodes : ∀ n ∈ F r, n.span.size < UINT64_MAX := by
    intro n hn
    have := h.sound.toCovers.node_fin_le hM hn
    simp only [Span.fin, ADDR_LIMIT, UINT64_MAX] at *
    omega
  rcases h.represents.findBestFit r (alignUp32 q.size (2 ^ k)) (2 ^ k) hnodes with
    ⟨hfit, -⟩ | ⟨n, hn, hfind, hfit⟩
  · exact .inl ⟨.errNomem, by decide, by rw [hfit]; rfl⟩
  · rw [hfind]
    rcases h.allocFrom hM q hn hk hk6 (Nat.pos_of_ne_zero hpass.rounded) hmod hcount hfit
      with ⟨hcall, -⟩ | ⟨s', t, hcall, halloc⟩
    · exact .inl ⟨.errNomem, by decide, hcall⟩
    · exact .inr ⟨s', t, r, hcall, halloc⟩

theorem MmInv.alloc_returned (hq : q.InRange)
    (hcall : tensorAllocAlignedProfiled hasOut q s = .done (res, s')) :
    (∃ st, st ≠ .ok ∧ res = (st, none) ∧ s' = s) ∨
      ∃ t r, res = (.ok, some t) ∧ Allocated M s r s' t := by
  rcases h.alloc hM hasOut q hq with ⟨st, hst, hc⟩ | ⟨s₁, t, r, hc, ha⟩
  · cases hc.symm.trans hcall
    exact .inl ⟨st, hst, rfl, rfl⟩
  · cases hc.symm.trans hcall
    exact .inr ⟨t, r, rfl, ha⟩

end

end

/-! ## What an allocation changes -/

namespace Arena

variable {a a' : Arena} {block i : Nat} {r : MemRegion}

theorem allocBlock_next (h : a.allocBlock = some (i, a')) :
    a'.blockPoolNext = a.blockPoolNext + 1 := by
  unfold allocBlock at h
  split at h
  · cases h
  · cases h
    rfl

/-- Whatever the state, an insertion links the block at the front or behind another. -/
theorem freeListInsert_cases (h : a.freeListInsert block r = .done a') :
    a' = (a.setBlock block fun b => { b with isFree := true }).linkFront block r ∨
      ∃ curr, a' = (a.setBlock block fun b => { b with isFree := true }).linkAfter block curr := by
  unfold freeListInsert at h
  simp only at h
  iterate 2
    split at h
    · exact .inl (done.inj h).symm
  split at h
  · cases h
  · exact .inr ⟨_, (done.inj h).symm⟩

theorem freeListInsert_next (h : a.freeListInsert block r = .done a') :
    a'.blockPoolNext = a.blockPoolNext := by
  rcases freeListInsert_cases h with rfl | ⟨curr, rfl⟩
  · simp [linkFront]
  · simp [linkAfter]

theorem splitFront_next {ab : Nat} (h : a.splitFront block ab r = .done (some a')) :
    a'.blockPoolNext ≤ a.blockPoolNext + 1 := by
  unfold splitFront at h
  simp only at h
  split at h
  · cases h
    exact Nat.le_succ _
  split at h
  · cases h
  · rename_i front a₁ halloc
    obtain ⟨a₂, hins, hrest⟩ := bind_eq_done.mp h
    cases hrest
    have hnext := allocBlock_next halloc
    exact ((freeListInsert_next hins).trans hnext).le

theorem splitBack_next {size : Nat} (h : a.splitBack block size r = .done a') :
    a'.blockPoolNext ≤ a.blockPoolNext + 1 := by
  unfold splitBack at h
  split at h
  · split at h
    · cases h
      exact Nat.le_succ _
    · rename_i rest a₁ halloc
      have hnext := allocBlock_next halloc
      exact ((freeListInsert_next h).trans hnext).le
  · cases h
    exact Nat.le_succ _

end Arena

/-- An allocation that fails leaves the state alone; one that succeeds has used at most two
descriptors and ends with the new record in the table. -/
theorem alloc_cases (hcall : tensorAllocAlignedProfiled hasOut q s = .done (res, s')) :
    (∃ st, st ≠ .ok ∧ res = (st, none) ∧ s' = s) ∨
    ∃ region block a, MemRegion.ofCode? q.region = some region ∧
      a.blockPoolNext ≤ s.arena.blockPoolNext + 2 ∧
      s' = enterTensor q region block { s with arena := a } ∧
      res = (.ok, some (s'.tensorTable s.tensorCount)) := by
  have hfail : ∀ {st : AiosStatus}, st ≠ .ok →
      (Outcome.done ((st, none), s) : Outcome (AllocResult × MmState)) = .done (res, s') →
      ∃ st, st ≠ .ok ∧ res = (st, none) ∧ s' = s := by
    intro st hst heq
    cases heq
    exact ⟨st, hst, rfl, rfl⟩
  rcases alloc_checks hasOut q s with ⟨st, hst, -, hc⟩ | ⟨region, al, hpass, -, hc⟩
  · exact .inl (hfail hst (hc.symm.trans hcall))
  · rw [hc] at hcall
    obtain ⟨found, -, hrest⟩ := bind_eq_done.mp hcall
    cases found with
    | none => exact .inl (hfail (by decide) hrest)
    | some block =>
      simp only [Option.elim, allocFrom] at hrest
      iterate 2
        split at hrest
        · exact .inl (hfail (by decide) hrest)
      obtain ⟨front, hfront, hrest⟩ := bind_eq_done.mp hrest
      cases front with
      | none => exact .inl (hfail (by decide) hrest)
      | some a =>
        obtain ⟨a', hback, rfl, rfl⟩ := of_map₂ hrest
        have h₁ := splitFront_next hfront
        have h₂ := splitBack_next hback
        exact .inr ⟨region, block, a', hpass.region, by omega, rfl, rfl⟩

theorem alloc_next (hcall : tensorAllocAlignedProfiled hasOut q s = .done (res, s')) :
    s'.arena.blockPoolNext ≤ s.arena.blockPoolNext + 2 := by
  rcases alloc_cases hcall with ⟨st, -, -, rfl⟩ | ⟨region, block, a, -, hle, rfl, -⟩
  · exact Nat.le_add_right _ _
  · simpa [enterTensor] using hle

/-- The same of `tensor_alloc`, whose checks come before. -/
theorem tensorAlloc_cases {beyond : Nat → Nat} {shape : Option TensorShape} {region : Nat}
    (hcall : tensorAlloc beyond shape region hasOut s = .done (res, s')) :
    res.1 ≠ .ok ∧ s' = s ∨ ∃ t, res = (.ok, some t) := by
  have hinval : (Outcome.done ((.errInval, none), s) : Outcome (AllocResult × MmState)) =
      .done (res, s') → res.1 ≠ .ok ∧ s' = s := by
    intro heq
    cases heq
    exact ⟨by decide, rfl⟩
  simp only [tensorAlloc, tensorAllocProfiled] at hcall
  iterate 3
    split at hcall
    · exact .inl (hinval hcall)
  rcases alloc_cases hcall with ⟨st, hst, rfl, rfl⟩ | ⟨_, _, _, -, -, -, rfl⟩
  · exact .inl ⟨hst, rfl⟩
  · exact .inr ⟨_, rfl⟩

section

variable (hcall : tensorAllocAlignedProfiled hasOut q s = .done ((.ok, some t), s'))
include hcall

theorem alloc_enters :
    ∃ region block a, MemRegion.ofCode? q.region = some region ∧
      s' = enterTensor q region block { s with arena := a } ∧ t = s'.tensorTable s.tensorCount := by
  rcases alloc_cases hcall with ⟨st, -, hres, -⟩ | ⟨region, block, a, hregion, -, hs, hres⟩
  · cases hres
  · exact ⟨region, block, a, hregion, hs, Option.some.inj (Prod.mk.inj hres).2⟩

theorem alloc_region :
    MemRegion.ofCode? q.region = some t.region := by
  obtain ⟨region, block, a, hregion, rfl, rfl⟩ := alloc_enters hcall
  simp [hregion, enterTensor, newTensor]

end

/-! ## What a release changes -/

section

variable {s s' : MmState} {id : Nat} {st : AiosStatus}

@[simp] theorem dropTensor_globalStats (i : Nat) :
    (s.dropTensor i).globalStats = s.globalStats := by
  simp only [MmState.dropTensor]
  split <;> rfl

/-- The ways a call of `tensor_free` can go. -/
inductive Freed (id : Nat) (s : MmState) : AiosStatus → MmState → Prop where
  | missing : findTensor s id = none → Freed id s .errInval s
  | counted (i : Nat) : findTensor s id = some i → 1 < (s.tensorTable i).refCount →
      Freed id s .ok (s.setTensor i fun t => { t with refCount := t.refCount - 1 })
  | full (i : Nat) : findTensor s id = some i → ¬ 1 < (s.tensorTable i).refCount →
      Freed id s .errNomem s
  | gone (i : Nat) (s' : MmState) : findTensor s id = some i →
      ¬ 1 < (s.tensorTable i).refCount → (live s).Perm (s.tensorTable i :: live s') →
      s'.arena.blockPoolNext = s.arena.blockPoolNext + 1 → s'.nextTensorId = s.nextTensorId →
      s'.globalStats = statsAfterFree (s.tensorTable i) s.globalStats →
      (∀ j < i, s'.tensorTable j = s.tensorTable j) → Freed id s .ok s'

theorem tensorFree_freed (hcall : tensorFree id s = .done (st, s')) : Freed id s st s' := by
  unfold tensorFree at hcall
  split at hcall
  · rename_i hfind
    cases hcall
    exact .missing hfind
  rename_i i hfind
  simp only at hcall
  split at hcall
  · rename_i href
    cases hcall
    exact .counted i hfind href
  rename_i href
  split at hcall
  · cases hcall
    exact .full i hfind href
  rename_i block a halloc
  obtain ⟨a₁, hins, rfl, rfl⟩ := of_map₂ hcall
  have hnext := allocBlock_next halloc
  rw [← setBlock_blockPoolNext, ← freeListInsert_next hins] at hnext
  refine .gone i _ hfind href ?_ (by simpa using hnext) (by simp) (by simp) fun j hj => ?_
  · have hperm := live_dropTensor (findTensor_some hfind).1
    simpa only [live, dropTensor_tensorCount, dropTensor_tensorTable] using hperm
  · rw [dropTensor_tensorTable]
    split
    · exact update_of_ne hj.ne _ _
    · rfl

end

end AiosKernel.TensorMm
