/-
# `AiosKernel.TensorMm.Fit` — which block an allocation takes, and what it makes of it

Two questions about `tensor_alloc_aligned_profiled` that the invariant of a run
does not answer by itself.

*Where do the bytes come from?*  The walk of `find_best_fit` keeps the first of
the smallest blocks that fit (`BestFit`).

*Is the tensor large enough?*  The block it is cut from holds the rounded size,
in every state whose free lists stay among the descriptors handed out
(`Arena.Closed`).  But the size is rounded with a 32-bit mask, so from 4 GiB on
the rounded size is not the one that was asked for.
-/
import AiosKernel.TensorMm.Room

namespace AiosKernel.TensorMm

open Word DList Tiling Outcome List

/-! ## The walk in any state -/

namespace Arena

/-- The descriptors that the free list of `r` leads to. -/
inductive Listed (a : Arena) (r : MemRegion) : Nat → Prop where
  | head {i : Nat} : a.freeLists r = some i → Listed a r i
  | next {i j : Nat} : Listed a r i → a.next i = some j → Listed a r j

/-- The free lists stay among the descriptors handed out. -/
def Closed (a : Arena) : Prop := ∀ r i, a.Listed r i → i < a.blockPoolNext

variable {a a' : Arena} {r : MemRegion} {size alignment i block : Nat}

/-- What the walk requires of the block it keeps. -/
structure Chosen (a : Arena) (r : MemRegion) (size alignment i : Nat) : Prop where
  listed : a.Listed r i
  fits : Arena.fits (a.blockPool i) size alignment = true
  bounded : (a.blockPool i).size < UINT64_MAX

theorem findBestFitFrom_chosen {fuel : Nat} :
    ∀ {curr best res : Option Nat} {bestSize : Nat},
      a.findBestFitFrom size alignment fuel curr best bestSize = .done res →
      (∀ i, curr = some i → a.Listed r i) → bestSize ≤ UINT64_MAX →
      (∀ i, best = some i → a.Chosen r size alignment i) →
      ∀ i, res = some i → a.Chosen r size alignment i := by
  induction fuel with
  | zero =>
    intro curr best res bestSize hcall _ _ hbest
    cases curr with
    | none => exact done.inj hcall ▸ hbest
    | some i => cases hcall
  | succ fuel ih =>
    intro curr best res bestSize hcall hcurr hsize hbest
    cases curr with
    | none => exact done.inj hcall ▸ hbest
    | some c =>
      have hc := hcurr c rfl
      have hnext : ∀ j, (a.blockPool c).next = some j → a.Listed r j := fun j hj => hc.next hj
      simp only [findBestFitFrom] at hcall
      split at hcall
      · rename_i hcond
        simp only [Bool.and_eq_true, decide_eq_true_eq] at hcond
        have hlt := hcond.2.trans_le hsize
        refine ih hcall hnext hlt.le fun i hi => ?_
        cases hi
        exact ⟨hc, hcond.1, hlt⟩
      · exact ih hcall hnext hsize hbest

theorem findBestFit_chosen (hcall : a.findBestFit r size alignment = .done (some i)) :
    a.Chosen r size alignment i :=
  findBestFitFrom_chosen hcall (fun _ hi => .head hi) le_rfl
    (fun _ hi => by cases hi) i rfl

/-! ## Spans through the cuts -/

theorem allocBlock_span (h : a.allocBlock = some (i, a')) :
    i = a.blockPoolNext ∧ ∀ y, (a'.blockPool y).span = (a.blockPool y).span := by
  unfold allocBlock at h
  split at h
  · cases h
  · cases Option.some.inj h
    exact ⟨rfl, fun y => setBlock_span _ _ y _ fun _ => rfl⟩

theorem linkFront_span (y : Nat) :
    ((a.linkFront block r).blockPool y).span = (a.blockPool y).span := by
  simp only [linkFront, setHead_blockPool]
  rw [setBlock?_span, setBlock_span] <;> exact fun _ => rfl

theorem linkAfter_span (y curr : Nat) :
    ((a.linkAfter block curr).blockPool y).span = (a.blockPool y).span := by
  simp only [linkAfter]
  rw [setBlock_span, setBlock?_span, setBlock_span] <;> exact fun _ => rfl

theorem freeListInsert_span (h : a.freeListInsert block r = .done a') (y : Nat) :
    (a'.blockPool y).span = (a.blockPool y).span := by
  have hmark : ((a.setBlock block fun b => { b with isFree := true }).blockPool y).span =
      (a.blockPool y).span := setBlock_span _ _ _ _ fun _ => rfl
  rcases freeListInsert_cases h with rfl | ⟨curr, rfl⟩
  · exact (linkFront_span y).trans hmark
  · exact (linkAfter_span y curr).trans hmark

theorem freeListRemove_span (y : Nat) :
    ((a.freeListRemove block r).blockPool y).span = (a.blockPool y).span := by
  have hbypass : ∀ p h, ((a.bypass p h r).blockPool y).span = (a.blockPool y).span := by
    intro p h
    cases p with
    | none => rfl
    | some p => exact setBlock_span _ _ _ (fun c => { c with next := h }) fun _ => rfl
  simp only [freeListRemove]
  rw [setBlock_span, setBlock?_span, hbypass] <;> exact fun _ => rfl

theorem splitFront_span {ab : Nat} (h : a.splitFront block ab r = .done (some a'))
    (hblock : block < a.blockPoolNext) (hbase : (a.blockPool block).base < 2 ^ 64)
    (hab : ab < 2 ^ 64) (hsize : (a.blockPool block).size < 2 ^ 64)
    (hwaste : sub64 ab (a.blockPool block).base ≤ (a.blockPool block).size) :
    (a'.blockPool block).span = ⟨ab, (a.blockPool block).size - sub64 ab (a.blockPool block).base⟩ ∧
      block < a'.blockPoolNext := by
  unfold splitFront at h
  simp only at h
  split at h
  · rename_i hzero
    cases done.inj h
    refine ⟨?_, hblock⟩
    have heq : (a.blockPool block).base = ab := by
      simp only [sub64] at hzero
      omega
    rw [MemBlock.span, hzero, heq]
    rfl
  split at h
  · cases h
  · rename_i front a₁ halloc
    obtain ⟨a₂, hins, hrest⟩ := bind_eq_done.mp h
    cases done.inj hrest
    obtain ⟨rfl, hspan⟩ := allocBlock_span halloc
    have hne : block ≠ a.blockPoolNext := hblock.ne
    have hsz : (a₁.blockPool block).size = (a.blockPool block).size :=
      congrArg Span.size (hspan block)
    refine ⟨?_, ?_⟩
    · rw [freeListInsert_span hins, setBlock_blockPool, if_pos rfl, setBlock_blockPool, if_neg hne,
        MemBlock.span]
      simp only [hsz, sub64_eq hwaste hsize]
    · have hnext := freeListInsert_next hins
      rw [setBlock_blockPoolNext, setBlock_blockPoolNext, allocBlock_next halloc] at hnext
      omega

theorem splitBack_span (h : a.splitBack block size r = .done a') (hblock : block < a.blockPoolNext)
    (hle : size ≤ (a.blockPool block).size) :
    (a'.blockPool block).base = (a.blockPool block).base ∧
      size ≤ (a'.blockPool block).size ∧ (a'.blockPool block).size ≤ (a.blockPool block).size := by
  have hkeep : ∀ {a' : Arena}, (a'.blockPool block).span = (a.blockPool block).span →
      (a'.blockPool block).base = (a.blockPool block).base ∧
      size ≤ (a'.blockPool block).size ∧
      (a'.blockPool block).size ≤ (a.blockPool block).size := by
    intro a' hspan
    have hsize : (a'.blockPool block).size = (a.blockPool block).size := congrArg Span.size hspan
    exact ⟨congrArg Span.base hspan, hsize ▸ hle, hsize.le⟩
  unfold splitBack at h
  split at h
  · split at h
    · cases h
      exact hkeep rfl
    · rename_i rest a₁ halloc
      obtain ⟨rfl, hspan⟩ := allocBlock_span halloc
      have hne : block ≠ a.blockPoolNext := hblock.ne
      have hfin := freeListInsert_span h block
      rw [setBlock_blockPool, if_pos rfl, setBlock_blockPool, if_neg hne] at hfin
      have hsize : (a'.blockPool block).size = size := congrArg Span.size hfin
      have hbase : (a'.blockPool block).base = (a₁.blockPool block).base := congrArg Span.base hfin
      exact ⟨hbase.trans (congrArg Span.base (hspan block)), hsize.symm.le, hsize ▸ hle⟩
  · cases h
    exact hkeep rfl

end Arena

/-! ## The tensor and its block -/

section

variable {s s' : MmState} {q : AllocRequest} {t : TensorAlloc} {size ab block k : Nat}
  {r : MemRegion}

theorem enterTensor_span (q : AllocRequest) (r : MemRegion) (block : Nat) (s : MmState) :
    ((enterTensor q r block s).tensorTable s.tensorCount).span =
      (s.arena.blockPool block).span := by
  rw [show (enterTensor q r block s).tensorTable s.tensorCount = newTensor q r s
    ((s.arena.freeListRemove block r).blockPool block) from Function.update_self ..]
  exact Arena.freeListRemove_span block

theorem carveTensor_span (hcall : carveTensor q r size ab block s = .done ((.ok, some t), s'))
    (hblock : block < s.arena.blockPoolNext) (hbase : (s.arena.blockPool block).base < 2 ^ 64)
    (hab : ab < 2 ^ 64) (hsize : (s.arena.blockPool block).size < 2 ^ 64)
    (hroom : sub64 ab (s.arena.blockPool block).base + size ≤ (s.arena.blockPool block).size) :
    t.physAddr = ab ∧ size ≤ t.size ∧
      sub64 ab (s.arena.blockPool block).base + t.size ≤ (s.arena.blockPool block).size := by
  obtain ⟨front, hfront, hcall⟩ := bind_eq_done.mp hcall
  cases front with
  | none => cases hcall
  | some a =>
    obtain ⟨a', hback, hcall⟩ := bind_eq_done.mp hcall
    obtain ⟨hres, rfl⟩ := of_done hcall
    obtain rfl := Option.some.inj (Prod.mk.inj hres).2
    obtain ⟨hspan, hlt⟩ := Arena.splitFront_span hfront hblock hbase hab hsize (by omega)
    have hsize₁ : (a.blockPool block).size = _ := congrArg Span.size hspan
    have hbase₁ : (a.blockPool block).base = ab := congrArg Span.base hspan
    simp only at hsize₁
    obtain ⟨hb, hge, hle⟩ := Arena.splitBack_span hback hlt (by omega)
    have ht := enterTensor_span q r block { s with arena := a' }
    have hphys := congrArg Span.base ht
    have htsize := congrArg Span.size ht
    simp only [TensorAlloc.span, MemBlock.span] at hphys htsize
    refine ⟨hphys.trans (hb.trans hbase₁), htsize ▸ hge, ?_⟩
    show _ + ((enterTensor q r block { s with arena := a' }).tensorTable s.tensorCount).size ≤ _
    omega

theorem Arena.fits_room {b : MemBlock} {al : Nat} (h : Arena.fits b size al = true) :
    b.base ≤ UINT64_MAX - (al - 1) ∧ sub64 (alignUp32 b.base al) b.base + size ≤ b.size := by
  simp only [Arena.fits, Bool.and_eq_true, decide_eq_true_eq] at h
  obtain ⟨⟨-, hbase⟩, ⟨hwaste, hsize⟩, -⟩ := h
  exact ⟨hbase, by omega⟩

theorem alignUp32_lt (x : Nat) (hk : k ≤ 32) : alignUp32 x (2 ^ k) < 2 ^ 32 := by
  rw [alignUp32, land_mask _ hk]
  exact (Nat.div_mul_le_self _ _).trans_lt (Nat.mod_lt _ (by decide))

/-- In every state with closed lists, a tensor that is returned starts at the aligned base of the
block that was found, and lies in it. -/
theorem alloc_in_block {hasOut : Bool} (hc : s.arena.Closed) (hq : q.InRange)
    (hcall : tensorAllocAlignedProfiled hasOut q s = .done ((.ok, some t), s')) :
    ∃ r k block, q.Passes r (2 ^ k) ∧ k < 32 ∧
      s.arena.findBestFit r (alignUp32 q.size (2 ^ k)) (2 ^ k) = .done (some block) ∧
      t.physAddr = alignUp32 (s.arena.blockPool block).base (2 ^ k) ∧
      alignUp32 q.size (2 ^ k) ≤ t.size ∧
      sub64 t.physAddr (s.arena.blockPool block).base + t.size ≤
        (s.arena.blockPool block).size := by
  rcases alloc_checks hasOut q s with ⟨st, hst, -, hc'⟩ | ⟨r, al, hpass, -, hc'⟩
  · rw [hc'] at hcall
    exact absurd (congrArg Prod.fst (of_done hcall).1) hst
  obtain ⟨k, rfl, -, hk⟩ := hpass.exists_pow hq
  rw [hc'] at hcall
  obtain ⟨found, hfind, hcall⟩ := bind_eq_done.mp hcall
  cases found with
  | none => cases hcall
  | some block =>
    have hchosen := Arena.findBestFit_chosen hfind
    obtain ⟨hbase, hroom⟩ := Arena.fits_room hchosen.fits
    have hsize := hchosen.bounded
    have hab := alignUp32_lt (s.arena.blockPool block).base hk.le
    simp only [Option.elim, allocFrom] at hcall
    split at hcall
    · cases hcall
    split at hcall
    · cases hcall
    simp only [UINT64_MAX] at hbase hsize
    obtain ⟨hphys, hge, hle⟩ := carveTensor_span hcall (hc r block hchosen.listed) (by omega)
      (by omega) (by omega) hroom
    exact ⟨r, k, block, hpass, hk, hfind, hphys, hge, hphys ▸ hle⟩

end

/-! ## Large enough -/

section

variable {l : Layout} {s s' : MmState} {q : AllocRequest} {t : TensorAlloc}

variable {a : Arena} {F : MemRegion → List FreeNode} {hasOut : Bool}

theorem Represents.listed (h : Represents a F) {r : MemRegion} {i : Nat} (hi : a.Listed r i) :
    ∃ n ∈ F r, n.ix = i := by
  induction hi with
  | head hhead =>
    rw [(h.links r).head_eq] at hhead
    exact mem_map.mp (mem_of_mem_head? hhead)
  | next _ hnext ih =>
    obtain ⟨n, hn, rfl⟩ := ih
    obtain ⟨as, bs, hF⟩ := append_of_mem hn
    rw [(h.list hF).next_eq] at hnext
    obtain ⟨m, hm, rfl⟩ := mem_map.mp (mem_of_mem_head? hnext)
    exact ⟨m, by simp [hF, hm], rfl⟩

theorem Represents.closed (h : Represents a F) : a.Closed := by
  intro r i hi
  obtain ⟨n, hn, rfl⟩ := h.listed hi
  exact h.bound r n hn

theorem Reach.alloc_size_le (h : Reach l s) (hq : q.InRange)
    (hcall : tensorAllocAlignedProfiled hasOut q s = .done ((.ok, some t), s')) :
    t.size ≤ ADDR_LIMIT := by
  obtain ⟨F, hinv⟩ := h.invariant.inv
  obtain ⟨r, k, block, -, -, hfind, -, -, hle⟩ := alloc_in_block hinv.represents.closed hq hcall
  obtain ⟨n, hn, rfl⟩ := hinv.represents.listed (Arena.findBestFit_chosen hfind).listed
  have hfin := hinv.sound.toCovers.node_fin_le h.invariant.managed_lt hn
  rw [(hinv.represents.holds r n hn).size_eq] at hle
  simp only [Span.fin] at hfin
  omega

/-- The tensor is as large as asked for and aligned. -/
def Satisfies (t : TensorAlloc) (q : AllocRequest) : Prop :=
  q.size ≤ t.size ∧ max q.alignment TENSOR_ALIGN ∣ t.physAddr

/-- In every state with closed lists, a tensor that is returned is aligned, and as large as asked
for if size and alignment stay in 32 bits together. -/
theorem alloc_satisfies (hc : s.arena.Closed) (hq : q.InRange)
    (hcall : tensorAllocAlignedProfiled hasOut q s = .done ((.ok, some t), s')) :
    max q.alignment TENSOR_ALIGN ∣ t.physAddr ∧
      (q.size + max q.alignment TENSOR_ALIGN ≤ 2 ^ 32 → q.size ≤ t.size) := by
  obtain ⟨r, k, block, hpass, hk, -, hphys, hge, -⟩ := alloc_in_block hc hq hcall
  rw [← hpass.align]
  refine ⟨hphys ▸ Nat.dvd_of_mod_eq_zero (alignUp32_mod _ hk.le), fun hsum => ?_⟩
  exact (alignUp32_bounds hk hsum).1.trans hge

/-- Moreover, in every state of a run it is as large as asked for only then. -/
theorem alloc_satisfies_iff {hasOut : Bool} (hq : q.InRange)
    (hcall : tensorAllocAlignedProfiled hasOut q s = .done ((.ok, some t), s')) :
    (s.arena.Closed → max q.alignment TENSOR_ALIGN ∣ t.physAddr ∧
      (q.size + max q.alignment TENSOR_ALIGN ≤ 2 ^ 32 → q.size ≤ t.size)) ∧
    ∀ l, Reach l s → s.arena.Closed ∧
      (Satisfies t q ↔ q.size + max q.alignment TENSOR_ALIGN ≤ 2 ^ 32) := by
  refine ⟨fun hc => alloc_satisfies hc hq hcall, fun l h => ?_⟩
  obtain ⟨F, hinv⟩ := h.invariant.inv
  have hc := hinv.represents.closed
  obtain ⟨hdvd, hlarge⟩ := alloc_satisfies hc hq hcall
  refine ⟨hc, ?_, fun hsum => ⟨hlarge hsum, hdvd⟩⟩
  rintro ⟨hsize, -⟩
  -- no pool has room for a size that is cut down
  obtain ⟨r, k, -, hpass, hk, -⟩ := alloc_in_block hc hq hcall
  have hle := hsize.trans (h.alloc_size_le hq hcall)
  have hpow := two_pow_le hk
  rw [← hpass.align]
  simp only [ADDR_LIMIT] at hle
  omega

/-- A line right after the boot. -/
theorem alloc_satisfies_line : ∃ s s' t, Reach imageLayout s ∧
    tensorAllocAlignedProfiled true lineRequest s = .done ((.ok, some t), s') ∧
    Satisfies t lineRequest := by
  obtain ⟨s, hs, hlive⟩ := exists_reach
  obtain ⟨s', t, hcall, -⟩ := hs.line_call hlive
  exact ⟨s, s', t, hs, hcall,
    ((alloc_satisfies_iff lineRequest_inRange hcall).2 _ hs).2.mpr (by decide)⟩

/-- A request for 64 bytes more than 4 GiB, which is rounded to one line. -/
def wrappedRequest : AllocRequest := { lineRequest with size := 2 ^ 32 + 64 }

theorem wrappedRequest_passes : wrappedRequest.Passes .tensor (2 ^ 6) :=
  ⟨by decide, rfl, by decide, by decide, by decide, by decide⟩

/-- More than 4 GiB are granted right after the boot, by a tensor of less than one. -/
theorem alloc_wraps : ∃ s s' t, Reach imageLayout s ∧
    tensorAllocAlignedProfiled true wrappedRequest s = .done ((.ok, some t), s') ∧
    t.size ≤ ADDR_LIMIT ∧ t.size < wrappedRequest.size ∧ ¬ Satisfies t wrappedRequest := by
  obtain ⟨s, hs, hlive⟩ := exists_reach
  obtain ⟨s', t, hcall, -⟩ := hs.serve_line hlive
    (show (MB 256, .tensor) ∈ memoryPools by decide) wrappedRequest_passes (by decide)
  have hle := hs.alloc_size_le ⟨by decide, by decide⟩ hcall
  have hlt : t.size < wrappedRequest.size := hle.trans_lt (by decide)
  exact ⟨s, s', t, hs, hcall, hle, hlt, fun h => absurd h.1 hlt.not_ge⟩

end

/-! ## The best fit -/

/-- The block holds `size` bytes from `p` on, its first aligned address. -/
def FitsAt (b : MemBlock) (size al p : Nat) : Prop :=
  b.base ≤ p ∧ p < b.base + al ∧ al ∣ p ∧ p + size ≤ b.base + b.size

/-- The block holds an aligned range of this size. -/
def Feasible (b : MemBlock) (size al : Nat) : Prop := ∃ p, FitsAt b size al p

section

variable {l : Layout} {s : MmState} {q : AllocRequest} {F : MemRegion → List FreeNode}
  {r : MemRegion} {n : FreeNode} {size k : Nat}

/-- In a run, the test of `find_best_fit` is feasibility: no free block reaches into the hole. -/
theorem RunInv.fits_iff_feasible (h : RunInv s) (hinv : MmInv (managed s.poolBase memoryPools) s F)
    (hn : n ∈ F r) (hk : k < 32) (hpos : 0 < size) :
    Arena.fits (s.arena.blockPool n.ix) size (2 ^ k) = true ↔
      Feasible (s.arena.blockPool n.ix) size (2 ^ k) := by
  have hold := hinv.represents.holds r n hn
  have hal := hinv.sound.freeAligned r n hn
  have hfin := hinv.sound.toCovers.node_fin_le h.managed_lt hn
  have hbase : n.span.base < ADDR_LIMIT := by
    have := hal.size_pos
    simp only [Span.fin] at hfin
    omega
  constructor
  · intro hfit
    obtain ⟨hroom, -⟩ := (hinv.represents.fits_iff hn hk hfin hal.size_pos).mp hfit
    obtain ⟨hle, hlt, hmod⟩ := alignUp32_small hk hbase
    rw [← hold.base_eq] at hle hlt hmod hroom
    rw [Span.fin, ← hold.base_eq, ← hold.size_eq] at hroom
    exact ⟨_, hle, hlt, Nat.dvd_of_mod_eq_zero hmod, hroom⟩
  · rintro ⟨p, hle, -, hdvd, hroom⟩
    refine h.fits_of_vacant hinv hn hk hpos (Nat.mod_eq_zero_of_dvd hdvd) fun x hx => ?_
    rw [hold.base_eq] at hle hroom
    rw [hold.size_eq] at hroom
    simp only [Span.mem_iff] at hx ⊢
    omega

/-- What an allocation of `size` bytes may do to a state whose free list for the region runs
through the descriptors `xs`. -/
structure ServedFrom (s : MmState) (xs : List Nat) (size al : Nat) (res : AllocResult)
    (s' : MmState) : Prop where
  refused : res.1 = .errNomem → ∀ i ∈ xs, ¬ Feasible (s.arena.blockPool i) size al
  /-- The bytes come from a feasible block, which is smaller than every feasible block before it
  and no larger than those behind it. -/
  served : res.1 = .ok → ∃ t as i bs, res.2 = some t ∧ xs = as ++ i :: bs ∧
    FitsAt (s.arena.blockPool i) size al t.physAddr ∧ size ≤ t.size ∧
    t.physAddr + t.size ≤ (s.arena.blockPool i).base + (s.arena.blockPool i).size ∧
    (∀ j ∈ as, Feasible (s.arena.blockPool j) size al →
      (s.arena.blockPool i).size < (s.arena.blockPool j).size) ∧
    ∀ j ∈ bs, Feasible (s.arena.blockPool j) size al →
      (s.arena.blockPool i).size ≤ (s.arena.blockPool j).size
  failed : res.1 ≠ .ok → s' = s

theorem MmInv.increasing {M : MemRegion → Set Nat} (h : MmInv M s F) (r : MemRegion) :
    ((F r).map FreeNode.ix).Pairwise fun i j =>
      (s.arena.blockPool i).base < (s.arena.blockPool j).base := by
  refine pairwise_map.mpr ((h.sound.gaps r).imp_of_mem fun {m n} hm hn hg => ?_)
  rw [(h.represents.holds r m hm).base_eq, (h.represents.holds r n hn).base_eq]
  exact (Nat.le_add_right _ _).trans_lt hg

theorem RunInv.served {as bs : List FreeNode} {t : TensorAlloc} {s' : MmState} {hasOut : Bool}
    (h : RunInv s) (hinv : MmInv (managed s.poolBase memoryPools) s F) (hq : q.InRange)
    (hpass : q.Passes r (2 ^ k)) (hk : k < 32) (hF : F r = as ++ n :: bs)
    (hfind : s.arena.findBestFit r (alignUp32 q.size (2 ^ k)) (2 ^ k) = .done (some n.ix))
    (hcall : tensorAllocAlignedProfiled hasOut q s = .done ((.ok, some t), s')) :
    FitsAt (s.arena.blockPool n.ix) (alignUp32 q.size (2 ^ k)) (2 ^ k) t.physAddr ∧
      alignUp32 q.size (2 ^ k) ≤ t.size ∧ t.physAddr + t.size ≤
        (s.arena.blockPool n.ix).base + (s.arena.blockPool n.ix).size := by
  obtain ⟨r', k', block, hpass', -, hfind', hphys, hge, hle⟩ :=
    alloc_in_block hinv.represents.closed hq hcall
  -- the two searches are one
  obtain rfl : r' = r := Option.some.inj (hpass'.region.symm.trans hpass.region)
  rw [show 2 ^ k' = 2 ^ k from hpass'.align.trans hpass.align.symm] at hfind' hphys hge
  obtain rfl : block = n.ix := Option.some.inj (done.inj (hfind'.symm.trans hfind))
  have hn : n ∈ F r' := by simp [hF]
  have hold := hinv.represents.holds r' n hn
  have hfin := hinv.sound.toCovers.node_fin_le h.managed_lt hn
  have hpos := (hinv.sound.freeAligned r' n hn).size_pos
  simp only [Span.fin, ADDR_LIMIT] at hfin
  obtain ⟨hbase, hlt, hmod⟩ := @alignUp32_small n.span.base k hk (by simp only [ADDR_LIMIT]; omega)
  rw [← hold.base_eq] at hbase hlt hmod hfin
  rw [← hphys] at hbase hlt hmod
  have hab := alignUp32_lt (s.arena.blockPool n.ix).base hk.le
  rw [sub64_eq hbase (by omega)] at hle
  exact ⟨⟨hbase, hlt, Nat.dvd_of_mod_eq_zero hmod, by omega⟩, hge, by omega⟩

/-- With a record and a descriptor left, every allocation of a run is refused for lack of memory
only if no free block is feasible for the rounded size, takes the first of the smallest feasible
blocks if it succeeds, and leaves the state as it was if it fails. -/
theorem alloc_best_fit (h : Reach l s) (hq : q.InRange)
    (hr : MemRegion.ofCode? q.region = some r) (hcount : s.tensorCount < MAX_TENSORS)
    (hdesc : s.arena.blockPoolNext < MAX_BLOCKS) (hasOut : Bool) :
    ∃ xs res s', IsList s.arena.next s.arena.prev (s.arena.freeLists r) xs ∧
      (xs.Pairwise fun i j => (s.arena.blockPool i).base < (s.arena.blockPool j).base) ∧
      tensorAllocAlignedProfiled hasOut q s = .done (res, s') ∧
      ServedFrom s xs (alignUp32 q.size (max q.alignment TENSOR_ALIGN))
        (max q.alignment TENSOR_ALIGN) res s' := by
  have hrun := h.invariant
  obtain ⟨F, hinv⟩ := hrun.inv
  refine ⟨(F r).map FreeNode.ix, ?_⟩
  have hlinks := hinv.represents.links r
  have hinc := hinv.increasing r
  rcases alloc_checks hasOut q s with ⟨st, hst, hfull, hcall⟩ | ⟨r', al, hpass, -, hcall⟩
  · refine ⟨_, s, hlinks, hinc, hcall, fun hst' => ?_, fun hst' => absurd hst' hst, fun _ => rfl⟩
    exact absurd (hfull hst') hcount.not_ge
  obtain rfl : r' = r := Option.some.inj (hpass.region.symm.trans hr)
  obtain ⟨k, rfl, hk6, hk⟩ := hpass.exists_pow hq
  rw [← hpass.align]
  have hpos := Nat.pos_of_ne_zero hpass.rounded
  have hnodes : ∀ n ∈ F r', n.span.size < UINT64_MAX := by
    intro n hn
    have := hinv.sound.toCovers.node_fin_le hrun.managed_lt hn
    simp only [Span.fin, ADDR_LIMIT, UINT64_MAX] at *
    omega
  rcases hinv.represents.findBestFit_best r' (alignUp32 q.size (2 ^ k)) (2 ^ k) hnodes with
    ⟨hfind, hnone⟩ | ⟨as, n, bs, hF, hfind, hbest⟩
  · refine ⟨(.errNomem, none), s, hlinks, hinc, by rw [hcall, hfind]; rfl, fun _ i hi => ?_, by simp,
      fun _ => rfl⟩
    obtain ⟨n, hn, rfl⟩ := mem_map.mp hi
    rw [← hrun.fits_iff_feasible hinv hn hk hpos, hnone n hn]
    exact Bool.false_ne_true
  · have hn : n ∈ F r' := by simp [hF]
    rcases hinv.allocFrom hrun.managed_lt q hn hk hk6 hpos (alignUp32_mod _ hk.le)
        hcount hbest.fits with ⟨-, hfull, -⟩ | ⟨s', t, hfrom, -⟩
    · exact absurd hfull hdesc.ne
    · have hok : tensorAllocAlignedProfiled hasOut q s = .done ((.ok, some t), s') := by
        rw [hcall, hfind]
        exact hfrom
      obtain ⟨hat, hge, hin⟩ := hrun.served hinv hq hpass hk hF hfind hok
      -- feasibility of the other blocks is what the search tests
      have hother : ∀ m ∈ F r', Feasible (s.arena.blockPool m.ix) (alignUp32 q.size (2 ^ k))
          (2 ^ k) → Arena.fits (s.arena.blockPool m.ix) (alignUp32 q.size (2 ^ k)) (2 ^ k) = true :=
        fun m hm => (hrun.fits_iff_feasible hinv hm hk hpos).mpr
      refine ⟨(.ok, some t), s', hlinks, hinc, hok, by simp, fun _ => ?_, fun hne => absurd rfl hne⟩
      refine ⟨t, as.map FreeNode.ix, n.ix, bs.map FreeNode.ix, rfl, by simp [hF], hat, hge, hin,
        ?_, ?_⟩
      · intro j hj hfeas
        obtain ⟨m, hm, rfl⟩ := mem_map.mp hj
        exact hbest.before m hm (hother m (by simp [hF, hm]) hfeas)
      · intro j hj hfeas
        obtain ⟨m, hm, rfl⟩ := mem_map.mp hj
        exact hbest.after m hm (hother m (by simp [hF, hm]) hfeas)

/-- A line right after the boot is served from the best fit. -/
theorem alloc_best_fit_boot : ∃ s xs res s', Reach imageLayout s ∧
    IsList s.arena.next s.arena.prev (s.arena.freeLists .tensor) xs ∧
    tensorAllocAlignedProfiled true lineRequest s = .done (res, s') ∧ res.1 = .ok ∧
    ServedFrom s xs 64 64 res s' := by
  obtain ⟨s, hinit⟩ := exists_init
  have hs : Reach imageLayout s := .init boot_bootState hinit
  obtain ⟨-, -, hlive, -, hnext⟩ := tensorMmInit_inv boot_bootState hinit
  have hcount : s.tensorCount = 0 := by simpa [live] using hlive
  have hdesc : s.arena.blockPoolNext < MAX_BLOCKS := hnext.trans_lt (by decide)
  obtain ⟨s₁, t, hok, -⟩ := hs.line_call hlive
  obtain ⟨xs, res, s', hlinks, -, hcall, hserved⟩ :=
    alloc_best_fit hs lineRequest_inRange rfl (by rw [hcount]; decide) hdesc true
  have hres : (.ok, some t) = res := (of_done (hok.symm.trans hcall)).1
  exact ⟨s, xs, res, s', hs, hlinks, hcall, hres ▸ rfl, hserved⟩

end

end AiosKernel.TensorMm
