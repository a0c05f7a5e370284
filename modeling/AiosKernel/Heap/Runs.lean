/-
# `AiosKernel.Heap.Runs` — every run of `kmalloc` and `kfree` keeps the pool well formed

The cells of `Heap.Cells` are carried through the calls: `coalesce_spec`,
`kmalloc_cases` and `kfree_spec` say what one call does to them, `Reach` is a
run of calls together with the pointers the caller still owns, and
`Reach.invariant` is the induction over runs.

A pointer that `kmalloc` returns has the bytes that were asked for behind it,
with an exception: `round_up` wraps around for the last 15 sizes there are, and
such a request gets a block of any size, also an empty one.
-/
import AiosKernel.Heap.Refine

namespace AiosKernel.Heap

open Word DList Tiling Outcome HeapState List

/-- The state represents cells that fill the pool and are well formed. -/
structure HeapInv (pool : HeapPool) (s : HeapState) (cs : List Cell) : Prop where
  represents : Represents s cs
  wellFormed : WellFormed pool.base (pool.base + HEAP_POOL_SIZE) cs

section

variable {pool : HeapPool} {s : HeapState} {as bs cs : List Cell} {c : Cell}

theorem length_le_of_contiguous (h : Contiguous pool.base cs (pool.base + HEAP_POOL_SIZE)) :
    cs.length ≤ 65536 := by
  have := h.length_le
  simp only [HEADER_SIZE, HEAP_POOL_SIZE] at this
  omega

theorem usedBytes_lt (h : Contiguous pool.base (as ++ c :: bs) (pool.base + HEAP_POOL_SIZE)) :
    usedBytes (as ++ bs) + c.size < 2 ^ 64 := by
  obtain ⟨m, h₁, h₂, h₃⟩ := contiguous_append.mp h
  -- mark the cell used: the bound is about cells in use
  have h' : Contiguous pool.base (as ++ { c with used := true } :: bs)
      (pool.base + HEAP_POOL_SIZE) := contiguous_append.mpr ⟨m, h₁, h₂, h₃⟩
  have hle := h'.usedBytes_le
  rw [usedBytes_mid] at hle
  have hr := pool.inRange
  have hp := pool.pos
  simp only [if_true] at hle
  omega

/-! ## `coalesce` -/

/-- A free cell, between two stretches of coalesced cells, being merged with its neighbours. -/
structure Merging (pool : HeapPool) (s : HeapState) (as : List Cell) (c : Cell)
    (bs : List Cell) : Prop where
  represents : Represents s (as ++ c :: bs)
  contiguous : Contiguous pool.base (as ++ c :: bs) (pool.base + HEAP_POOL_SIZE)
  aligned : ∀ d ∈ as ++ c :: bs, d.size % HEAP_ALIGN = 0
  free : c.used = false
  before : as.IsChain NotBothFree
  after : bs.IsChain NotBothFree

/-- Joining a free cell with a free successor keeps everything but the two stretches'
coalescing, which only gets easier. -/
theorem Merging.join {d : Cell} (h : Merging pool s as c (d :: bs)) (hd : d.used = false) :
    Merging pool (absorb c.addr d.addr s) as (c.join d) bs where
  represents := by
    have hcon := h.contiguous
    have hlen := length_le_of_contiguous hcon
    refine h.represents.absorb h.free hd ?_ (by omega)
    obtain ⟨m, -, hcm, hdm, hbs⟩ := contiguous_append.mp hcon
    have hle := hbs.le
    have hr := pool.inRange
    simp only [Cell.fin, HEADER_SIZE] at *
    omega
  contiguous := contiguous_join h.contiguous
  aligned := aligned_join h.aligned
  free := h.free
  before := h.before
  after := h.after.tail

theorem Merging.mergeNext (h : Merging pool s as c bs) :
    ∃ c' bs', Merging pool (mergeNext c.addr s) as c' bs' ∧ c'.addr = c.addr ∧
      (∀ d ∈ bs'.head?, d.used = true) ∧ usedCells bs' = usedCells bs := by
  have hnext := h.represents.next_eq
  cases bs with
  | nil =>
    have : Heap.mergeNext c.addr s = s := by simp [Heap.mergeNext, hnext]
    rw [this]
    exact ⟨c, [], h, rfl, by simp, rfl⟩
  | cons d bs =>
    have hhold := h.represents.holds d (by simp)
    have hstep : Heap.mergeNext c.addr s =
        if (s.mem d.addr).free = 0 then s else absorb c.addr d.addr s := by
      simp [Heap.mergeNext, hnext]
    rw [hstep]
    cases hd : d.used with
    | true =>
      rw [if_pos (hhold.free_eq_zero_iff.mpr hd)]
      exact ⟨c, d :: bs, h, rfl, by simpa using hd, rfl⟩
    | false =>
      rw [if_neg (by rw [hhold.free_eq_zero_iff, hd]; simp)]
      refine ⟨c.join d, bs, h.join hd, rfl, fun e he => ?_, ?_⟩
      · exact (h.after.rel_head? he).resolve_left (by simp [hd])
      · simp [usedCells, hd]

theorem Merging.mergePrev (h : Merging pool s as c bs) (hb : ∀ d ∈ bs.head?, d.used = true) :
    ∃ as' c', Merging pool (mergePrev c.addr s) as' c' bs ∧
      (∀ d ∈ as'.getLast?, d.used = true) ∧ usedCells as' = usedCells as := by
  have hprev := h.represents.prev_eq
  rcases eq_nil_or_concat as with rfl | ⟨as', d, rfl⟩
  · have : Heap.mergePrev c.addr s = s := by simp [Heap.mergePrev, hprev]
    rw [this]
    exact ⟨[], c, h, by simp, rfl⟩
  · rw [concat_eq_append] at *
    have hhold := h.represents.holds d (by simp)
    have hstep : Heap.mergePrev c.addr s =
        if (s.mem d.addr).free = 0 then s else absorb d.addr c.addr s := by
      simp [Heap.mergePrev, hprev]
    rw [hstep]
    cases hd : d.used with
    | true =>
      rw [if_pos (hhold.free_eq_zero_iff.mpr hd)]
      exact ⟨as' ++ [d], c, h, by simpa using hd, rfl⟩
    | false =>
      rw [if_neg (by rw [hhold.free_eq_zero_iff, hd]; simp)]
      obtain ⟨hchain, -, hseam⟩ := isChain_append.mp h.before
      -- seen from `d`, the cell being merged is its successor
      have h' : Merging pool s as' d (c :: bs) :=
        { represents := by simpa using h.represents
          contiguous := by simpa using h.contiguous
          aligned := fun e he => h.aligned e (by simpa using he)
          free := hd
          before := hchain
          after := h.after.cons fun e he => .inr (hb e he) }
      refine ⟨as', d.join c, h'.join h.free, fun e he => ?_, ?_⟩
      · exact (hseam e he d (by simp)).resolve_right (by simp [hd])
      · simp [usedCells, hd]

/-- `coalesce` of a free cell between coalesced stretches leaves a well-formed pool with the
same cells in use. -/
theorem Merging.coalesce (h : Merging pool s as c bs) :
    ∃ cs', HeapInv pool (coalesce c.addr s) cs' ∧ usedCells cs' = usedCells (as ++ bs) := by
  obtain ⟨c', bs', hm, haddr, hb, hub⟩ := h.mergeNext
  obtain ⟨as', c'', hm', ha, hua⟩ := hm.mergePrev hb
  rw [haddr] at hm'
  have hchain : (as' ++ c'' :: bs').IsChain NotBothFree := by
    refine isChain_append.mpr ⟨hm'.before, ?_, fun d hd _ _ => .inl (ha d hd)⟩
    exact hm'.after.cons fun e he => .inr (hb e he)
  refine ⟨as' ++ c'' :: bs', ⟨hm'.represents, { hm' with coalesced := hchain }⟩, ?_⟩
  have hfree := hm'.free
  simp only [usedCells, filter_append, filter_cons, hfree] at hua hub ⊢
  simp [hua, hub]

/-! ## The calls -/

theorem roundUp_eq (n : Nat) : roundUp n = (n + 15) % 2 ^ 64 / 16 * 16 := by
  have hmask : roundUp n = u64 (n + HEAP_ALIGN - 1) % 2 ^ 64 / 2 ^ 4 * 2 ^ 4 :=
    land_mask (u64 (n + HEAP_ALIGN - 1)) (k := 4) (by decide)
  rw [hmask, u64, Nat.mod_mod]
  rfl

theorem roundUp_aligned (n : Nat) : roundUp n % HEAP_ALIGN = 0 := by
  rw [roundUp_eq]
  exact Nat.mul_mod_left _ _

theorem HeapInv.lock (h : HeapInv pool s cs) (n : Nat) :
    HeapInv pool { s with lockAcquires := n } cs :=
  ⟨{ h.represents with }, h.wellFormed⟩

theorem HeapInv.handOut {n : Nat} (h : HeapInv pool s (as ++ c :: bs)) (hc : c.used = false)
    (hn : n ≤ c.size) (hal : n % HEAP_ALIGN = 0) :
    ∃ c' cs', HeapInv pool (takeBlock c.addr (splitBlock c.addr n s)) cs' ∧ c'.addr = c.addr ∧
      n ≤ c'.size ∧ (usedCells cs').Perm (c' :: usedCells (as ++ c :: bs)) := by
  have hcon := h.wellFormed.contiguous
  have hr := pool.inRange
  have hlen := length_le_of_contiguous hcon
  have hlt := usedBytes_lt hcon
  have hsize : sub64 (s.mem c.addr).size n = c.size - n := by
    rw [(h.represents.holds c (by simp)).size]
    exact sub64_eq hn (by omega)
  have hused : ∀ (d : Cell) (ds : List Cell), d.used = true → usedCells ds = usedCells bs →
      (usedCells (as ++ d :: ds)).Perm (d :: usedCells (as ++ c :: bs)) := by
    intro d ds hd hds
    simp only [usedCells] at hds
    simp only [usedCells, filter_append, filter_cons, hc, hd, if_true, hds]
    exact perm_middle
  by_cases hrest : HEADER_SIZE + HEAP_ALIGN < c.size - n
  · -- the tail becomes a free cell of its own
    have hsplit := h.represents.split hcon hr hc hn hrest (by omega)
    have hcut := h.wellFormed.cut hc hal (by simp only [HEAP_ALIGN] at hrest; omega)
    refine ⟨{ c with size := n, used := true }, _, ⟨hsplit.take hc ?_, hcut⟩, rfl, le_refl n, ?_⟩
    · have := usedBytes_lt hcut.contiguous
      simpa using this
    · exact hused _ _ rfl (by simp [usedCells])
  · rw [splitBlock, if_neg (by rwa [hsize])]
    exact ⟨{ c with used := true }, _, ⟨h.represents.take hc hlt, h.wellFormed.take⟩, rfl,
      hn, hused _ _ rfl rfl⟩

/-- `kmalloc` stops for want of fuel only on a list longer than the fuel; otherwise it
returns, with nothing and the cells as they were, or with one more cell in use, which has
the rounded size at least. -/
theorem kmalloc_cases (h : HeapInv pool s cs) (fuel size : Nat) :
    (kmalloc fuel size s = .diverge ∧ fuel < cs.length) ∨
    (∃ s', kmalloc fuel size s = .done (none, s') ∧ HeapInv pool s' cs) ∨
    ∃ s' c cs', kmalloc fuel size s = .done (some (Cell.ptr c), s') ∧ HeapInv pool s' cs' ∧
      roundUp size ≤ c.size ∧ (usedCells cs').Perm (c :: usedCells cs) := by
  by_cases h0 : size = 0
  · exact .inr (.inl ⟨s, by simp [kmalloc, h0], h⟩)
  · have hready : ¬ (s.ready = false ∨ size = 0) := by
      simp [h.represents.ready, h0]
    have hlock := h.lock (u64 (s.lockAcquires + 1))
    have hhead : s.head = (cs.map Cell.addr).head? := h.represents.links.head_eq
    have hfit := @firstFit_cases s.mem (roundUp size) fuel none cs h.represents.links.2
      h.represents.holds
    rcases hfit with ⟨hf, hlt⟩ | hf | ⟨as, c, bs, rfl, hc, hn, hf⟩
    · refine .inl ⟨?_, hlt⟩
      simp only [kmalloc, if_neg hready, hhead, hf, Outcome.diverge_bind]
    · refine .inr (.inl ⟨_, ?_, hlock⟩)
      simp only [kmalloc, if_neg hready, hhead, hf, Outcome.done_bind]
    · obtain ⟨c', cs', hinv, haddr, hle, hperm⟩ := hlock.handOut hc hn (roundUp_aligned size)
      refine .inr (.inr ⟨_, c', cs', ?_, hinv, hle, hperm⟩)
      simp only [kmalloc, if_neg hready, hhead, hf, Outcome.done_bind, Cell.ptr, haddr]

/-- `kfree` of a cell in use returns, with that cell no longer in use. -/
theorem kfree_spec (h : HeapInv pool s cs) (hc : c ∈ usedCells cs) :
    ∃ s' cs', kfree (some c.ptr) s = .done s' ∧ HeapInv pool s' cs' ∧
      (usedCells cs).Perm (c :: usedCells cs') := by
  obtain ⟨hmem, hused⟩ := mem_filter.mp hc
  obtain ⟨as, bs, rfl⟩ := append_of_mem hmem
  have hlock := h.lock (u64 (s.lockAcquires + 1))
  have hold := h.represents.holds c (by simp)
  have hcon := h.wellFormed.contiguous
  obtain ⟨m, h₁, h₂, h₃⟩ := contiguous_append.mp hcon
  obtain ⟨hbefore, hafter, -⟩ := isChain_append.mp h.wellFormed.coalesced
  have hmerge : Merging pool (markFree c.addr { s with lockAcquires := u64 (s.lockAcquires + 1) })
      as { c with used := false } bs :=
    { represents := hlock.represents.mark hused (usedBytes_lt hcon)
      contiguous := contiguous_append.mpr ⟨m, h₁, h₂, h₃⟩
      aligned := by
        have haligned := h.wellFormed.aligned
        rw [Slots.forall_mem_split] at haligned ⊢
        exact haligned
      free := rfl
      before := hbefore
      after := hafter.tail }
  obtain ⟨cs', hinv, hcs'⟩ := hmerge.coalesce
  refine ⟨_, cs', ?_, hinv, ?_⟩
  · have hmagic : (s.mem c.addr).magic = HEAP_MAGIC_USED := by
      rw [hold.magic, Cell.magic, hused, if_pos rfl]
    have hfree : (s.mem c.addr).free = 0 := hold.free_eq_zero_iff.mpr hused
    simp [kfree, h.represents.ready, c.ptr_sub, hmagic, hfree]
  · rw [hcs']
    simp only [usedCells, filter_append, filter_cons, hused, if_true]
    exact perm_middle

theorem heapInit_inv :
    HeapInv pool (heapInit pool s) [⟨pool.base, HEAP_POOL_SIZE - HEADER_SIZE, false⟩] := by
  have hmem : (heapInit pool s).mem pool.base =
      { size := HEAP_POOL_SIZE - HEADER_SIZE, magic := HEAP_MAGIC_FREE, free := 1,
        next := none, prev := none } := by
    simp [heapInit, HeapState.setBlock]
  refine ⟨⟨rfl, ⟨rfl, ?_, ?_, trivial⟩, ?_, rfl, rfl⟩, ⟨⟨rfl, ?_⟩, ?_, List.IsChain.singleton _⟩⟩
  · show ((heapInit pool s).mem pool.base).prev = none
    rw [hmem]
  · show ((heapInit pool s).mem pool.base).next = none
    rw [hmem]
  · intro c hc
    obtain rfl := mem_singleton.mp hc
    rw [hmem]
    exact ⟨rfl, rfl, rfl⟩
  · show pool.base + HEADER_SIZE + (HEAP_POOL_SIZE - HEADER_SIZE) = pool.base + HEAP_POOL_SIZE
    have hle : HEADER_SIZE ≤ HEAP_POOL_SIZE := by decide
    omega
  · intro c hc
    obtain rfl := mem_singleton.mp hc
    show (HEAP_POOL_SIZE - HEADER_SIZE) % HEAP_ALIGN = 0
    decide

/-! ## Runs -/

/-- A run after `heap_init`: the state reached and the pointers that `kmalloc` returned and
the caller has not freed. -/
inductive Reach (pool : HeapPool) : HeapState → List Nat → Prop where
  | init (s : HeapState) : Reach pool (heapInit pool s) []
  | kmalloc {s s' : HeapState} {live : List Nat} {fuel size : Nat} {r : Option Nat} :
      Reach pool s live → kmalloc fuel size s = .done (r, s') → Reach pool s' (r.toList ++ live)
  | kfree {s s' : HeapState} {live : List Nat} {p : Nat} :
      Reach pool s live → p ∈ live → kfree (some p) s = .done s' → Reach pool s' (live.erase p)
  | kfreeNull {s s' : HeapState} {live : List Nat} :
      Reach pool s live → Heap.kfree none s = .done s' → Reach pool s' live

/-- The pool is well formed and its cells in use are the caller's. -/
structure Owns (pool : HeapPool) (s : HeapState) (live : List Nat) (cs : List Cell) : Prop where
  inv : HeapInv pool s cs
  owned : live.Perm ((usedCells cs).map Cell.ptr)

section

variable {s' : HeapState} {live : List Nat} {fuel size p : Nat} {r : Option Nat}

theorem Owns.kmalloc (h : Owns pool s live cs) (hcall : kmalloc fuel size s = .done (r, s')) :
    ∃ cs', Owns pool s' (r.toList ++ live) cs' := by
  rcases kmalloc_cases h.inv fuel size with ⟨hd, -⟩ | ⟨s'', hd, hinv'⟩ |
    ⟨s'', c, cs', hd, hinv', -, hperm⟩
  · simp [hd] at hcall
  · obtain ⟨rfl, rfl⟩ : none = r ∧ s'' = s' := by simpa [hd] using hcall
    exact ⟨cs, hinv', h.owned⟩
  · obtain ⟨rfl, rfl⟩ : some c.ptr = r ∧ s'' = s' := by simpa [hd] using hcall
    exact ⟨cs', hinv', (h.owned.cons _).trans (hperm.map Cell.ptr).symm⟩

theorem Owns.cell (h : Owns pool s live cs) (hp : p ∈ live) : ∃ c ∈ usedCells cs, c.ptr = p :=
  mem_map.mp (h.owned.mem_iff.mp hp)

theorem Owns.kfree (h : Owns pool s live cs) (hp : p ∈ live) (hcall : kfree (some p) s = .done s') :
    ∃ cs', Owns pool s' (live.erase p) cs' ∧ usedCells cs' ⊆ usedCells cs := by
  obtain ⟨c, hc, rfl⟩ := h.cell hp
  obtain ⟨s'', cs', hd, hinv', hperm⟩ := kfree_spec h.inv hc
  obtain rfl : s'' = s' := by simpa [hd] using hcall
  refine ⟨cs', ⟨hinv', ?_⟩, fun d hd => hperm.mem_iff.mpr (mem_cons_of_mem c hd)⟩
  have := (h.owned.trans (hperm.map Cell.ptr)).erase c.ptr
  simpa using this

end

variable {live : List Nat} {p a z : Nat} {s' : HeapState}

/-- Along every run the pool stays well formed and the cells in use are the caller's. -/
theorem Reach.invariant (h : Reach pool s live) : ∃ cs, Owns pool s live cs := by
  induction h with
  | init s => exact ⟨_, heapInit_inv, List.Perm.refl _⟩
  | kmalloc _ hcall ih =>
    obtain ⟨cs, h⟩ := ih
    exact h.kmalloc hcall
  | kfree _ hp hcall ih =>
    obtain ⟨cs, h⟩ := ih
    obtain ⟨cs', h', -⟩ := h.kfree hp hcall
    exact ⟨cs', h'⟩
  | kfreeNull _ hcall ih =>
    cases hcall
    exact ih

/-! ## The counters

The counters of the used and the free bytes move by the same amounts in opposite directions, so
they add up to the total that `heap_init` wrote. -/

theorem coalesce_induct {P : HeapState → Prop} (hmerge : ∀ {b nx s}, P s → P (absorb b nx s))
    (b : Nat) (hs : P s) : P (coalesce b s) := by
  have hnext : P (mergeNext b s) := by
    unfold mergeNext
    split
    · exact hs
    · split
      · exact hs
      · exact hmerge hs
  unfold coalesce mergePrev
  split
  · exact hnext
  · split
    · exact hnext
    · exact hmerge hnext

/-- The bytes in use and the free bytes are those of the pool without its first header. -/
structure Balanced (t : HeapStats) : Prop where
  total : t.total = HEAP_POOL_SIZE - HEADER_SIZE
  sum : t.free + t.used = t.total

theorem HeapInv.used_le (h : HeapInv pool s cs) : s.stats.used ≤ HEAP_POOL_SIZE - HEADER_SIZE := by
  rw [h.represents.used]
  -- the first header is in use by nobody
  have hcon := h.wellFormed.contiguous
  cases cs with
  | nil =>
    have hempty : pool.base = pool.base + HEAP_POOL_SIZE := hcon
    simp only [HEAP_POOL_SIZE] at hempty
    omega
  | cons d ds =>
    have hle := hcon.2.usedBytes_le
    have hhead := hcon.1
    simp only [Cell.fin] at hle
    rw [usedBytes_cons]
    split <;> omega

theorem Owns.size_le (h : Owns pool s live cs) (hp : p ∈ live) :
    (s.mem (p - HEADER_SIZE)).size ≤ HEAP_POOL_SIZE := by
  obtain ⟨c, hc, rfl⟩ := h.cell hp
  have hmem := mem_of_mem_filter hc
  have hbounds := h.inv.wellFormed.contiguous.mem_bounds c hmem
  rw [c.ptr_sub, (h.inv.represents.holds c hmem).size]
  simp only [Cell.fin] at hbounds
  omega

theorem splitBlock_balanced (cur n : Nat) (hs : Balanced s.stats) :
    Balanced (splitBlock cur n s).stats := by
  unfold splitBlock
  dsimp only
  split
  · rw [setStats_stats, setBlock_stats, setBlock?_stats]
    exact ⟨hs.total, hs.sum⟩
  · exact hs

theorem takeBlock_balanced {cur : Nat} (hs : Balanced s.stats)
    (hsize : ((takeBlock cur s).mem cur).size ≤ HEAP_POOL_SIZE)
    (hused : (takeBlock cur s).stats.used ≤ HEAP_POOL_SIZE - HEADER_SIZE) :
    Balanced (takeBlock cur s).stats := by
  refine ⟨hs.total, ?_⟩
  have hsum := hs.sum
  have htotal := hs.total
  simp only [takeBlock, setStats_mem, setStats_stats, setBlock_stats] at hsize hused ⊢
  simp only [u64, sub64, HEAP_POOL_SIZE, HEADER_SIZE] at *
  omega

theorem kmalloc_balanced {fuel size : Nat} {r : Option Nat} (hs : Balanced s.stats)
    (h' : Owns pool s' (r.toList ++ live) cs) (hcall : kmalloc fuel size s = .done (r, s')) :
    Balanced s'.stats := by
  unfold kmalloc at hcall
  split at hcall
  · cases hcall
    exact hs
  obtain ⟨cur, -, hrest⟩ := bind_eq_done.mp hcall
  cases cur with
  | none =>
    cases hrest
    exact hs
  | some cur =>
    cases hrest
    have hsize := h'.size_le (mem_append_left live (mem_singleton.mpr rfl))
    exact takeBlock_balanced (splitBlock_balanced cur _ hs) hsize h'.inv.used_le

theorem markFree_balanced {b : Nat} (hs : Balanced s.stats)
    (hsize : (s.mem b).size ≤ HEAP_POOL_SIZE)
    (hused : (markFree b s).stats.used ≤ HEAP_POOL_SIZE - HEADER_SIZE) :
    Balanced (markFree b s).stats := by
  refine ⟨hs.total, ?_⟩
  have hsum := hs.sum
  have htotal := hs.total
  simp only [markFree, setStats_stats, setBlock_stats] at hused ⊢
  simp only [u64, sub64, HEAP_POOL_SIZE, HEADER_SIZE] at *
  omega

theorem kfree_done (hready : s.ready = true) (hcall : kfree (some p) s = .done s') :
    s' = coalesce (p - HEADER_SIZE) (markFree (p - HEADER_SIZE)
      { s with lockAcquires := u64 (s.lockAcquires + 1) }) := by
  simp only [kfree] at hcall
  split at hcall
  · simp_all
  split at hcall
  · cases hcall
  split at hcall
  · cases hcall
  · exact (done.inj hcall).symm

theorem kfree_balanced {cs' : List Cell} (hs : Balanced s.stats) (h : Owns pool s live cs)
    (hp : p ∈ live) (h' : HeapInv pool s' cs') (hcall : kfree (some p) s = .done s') :
    Balanced s'.stats := by
  have hused := h'.used_le
  rw [kfree_done h.inv.represents.ready hcall] at hused ⊢
  -- a merge changes the number of blocks and no other counter
  refine (coalesce_induct (P := fun t => t.stats.used ≤ _ → Balanced t.stats) ?_ _ ?_) hused
  · intro b nx t ht hle
    rw [absorb_stats] at hle ⊢
    exact ⟨(ht hle).total, (ht hle).sum⟩
  · exact markFree_balanced hs (h.size_le hp)

/-- Along every run the counters are balanced. -/
theorem Reach.balanced (h : Reach pool s live) : Balanced s.stats := by
  induction h with
  | init s => exact ⟨by simp [heapInit, HeapState.setBlock], Nat.add_zero _⟩
  | kmalloc hr hcall ih =>
    obtain ⟨cs, h'⟩ := (hr.kmalloc hcall).invariant
    exact kmalloc_balanced ih h' hcall
  | kfree hr hp hcall ih =>
    obtain ⟨cs, h⟩ := hr.invariant
    obtain ⟨cs', h', -⟩ := h.kfree hp hcall
    exact kfree_balanced ih h hp h'.inv hcall
  | kfreeNull _ hcall ih =>
    cases hcall
    exact ih

theorem Reach.used_le_total (h : Reach pool s live) : s.stats.used ≤ s.stats.total := by
  rw [← h.balanced.sum]
  exact Nat.le_add_left _ _

/-! ## Free bytes

A block that is cut loses 32 bytes to the header of its second half, and gets them back in a
merge.  The counter of the free bytes notices neither. -/

/-- The usable bytes of the free blocks among `bs`. -/
def freeBytes (s : HeapState) (bs : List Nat) : Nat :=
  ((bs.filter fun b => (s.mem b).free ≠ 0).map fun b => (s.mem b).size).sum

theorem Represents.freeBytes_eq (h : Represents s cs) : freeBytes s (cs.map Cell.addr) +
    (usedBytes cs + cs.length * HEADER_SIZE) = (cs.map fun c => c.size + HEADER_SIZE).sum := by
  have hholds := h.holds
  clear h
  induction cs with
  | nil => rfl
  | cons c cs ih =>
    have hc := hholds c mem_cons_self
    have hrest := ih fun d hd => hholds d (mem_cons_of_mem c hd)
    rw [usedBytes_cons]
    simp only [freeBytes, HEADER_SIZE, map_cons, filter_cons, ne_eq,
      hc.free_eq_zero_iff, sum_cons, length_cons] at hrest ⊢
    cases c.used with
    | false =>
      simp only [Bool.false_eq_true, not_false_eq_true, decide_true, if_true, if_false,
        map_cons, sum_cons, hc.size]
      omega
    | true =>
      simp only [not_true, decide_false, Bool.false_eq_true, if_false, if_true]
      omega

/-- **In every state of every run the free bytes that `heap_get_stats` reports are those of the
free blocks, and 32 more for every block but one**: the report is exact if and only if the pool is
a single block. -/
theorem free_statistic_exact_iff {live : List Nat} (h : Reach pool s live) :
    ∃ bs, IsList (fun b => (s.mem b).next) (fun b => (s.mem b).prev) s.head bs ∧
      (heapGetStats s).free = freeBytes s bs + HEADER_SIZE * (bs.length - 1) ∧
      ((heapGetStats s).free = freeBytes s bs ↔ ∃ b, bs = [b]) := by
  obtain ⟨cs, hinv, -⟩ := h.invariant
  have hbytes := hinv.represents.freeBytes_eq
  have hsum := hinv.wellFormed.contiguous.sum_eq
  have hused := hinv.represents.used
  have htotal := h.balanced.total
  have hbalance := h.balanced.sum
  refine ⟨cs.map Cell.addr, hinv.represents.links, ?_⟩
  rw [← length_eq_one_iff, length_map]
  simp only [heapGetStats, HEAP_POOL_SIZE, HEADER_SIZE] at *
  cases cs with
  | nil => simp at hsum
  | cons c cs =>
    rw [length_cons] at *
    omega

/-! ## What every run guarantees, read off the headers -/

/-- The bytes a caller owns behind a pointer, as the header before it records them. -/
def liveSpan (s : HeapState) (p : Nat) : Span := ⟨p, (s.mem (p - HEADER_SIZE)).size⟩

/-- The allocator is sound in the state `s`, in which the blocks reached from `heap_head`
are `bs` and the caller owns the pointers `live`. -/
structure Sound (pool : HeapPool) (s : HeapState) (live bs : List Nat) : Prop where
  /-- `next` leads from the head through `bs` to null, and `prev` inverts it. -/
  links : IsList (fun b => (s.mem b).next) (fun b => (s.mem b).prev) s.head bs
  increasing : bs.Pairwise (· < ·)
  abutting : bs.IsChain fun a b => a + HEADER_SIZE + (s.mem a).size = b
  total : (bs.map fun b => (s.mem b).size + HEADER_SIZE).sum = HEAP_POOL_SIZE
  coalesced : bs.IsChain fun a b => (s.mem a).free = 0 ∨ (s.mem b).free = 0
  tags : ∀ b ∈ bs, ((s.mem b).free = 0 ∧ (s.mem b).magic = HEAP_MAGIC_USED) ∨
    ((s.mem b).free = 1 ∧ (s.mem b).magic = HEAP_MAGIC_FREE)
  blocks : (heapGetStats s).blocks = bs.length
  used : (heapGetStats s).used =
    ((bs.filter fun b => (s.mem b).free = 0).map fun b => (s.mem b).size).sum
  owned : live.Perm ((bs.filter fun b => (s.mem b).free = 0).map (· + HEADER_SIZE))
  aligned : ∀ p ∈ live, p % 16 = 0
  disjoint : live.Pairwise fun p q => (liveSpan s p).Apart (liveSpan s q)
  noHeader : ∀ p ∈ live, ∀ b ∈ bs, (liveSpan s p).Apart ⟨b, HEADER_SIZE⟩
  kmallocReturns : ∀ fuel size, bs.length ≤ fuel → ∃ r, kmalloc fuel size s = .done r
  kmallocNoPanic : ∀ fuel size msg, kmalloc fuel size s ≠ .panic msg
  kfreeReturns : ∀ p ∈ live, ∃ s', kfree (some p) s = .done s'
  emptied : live = [] → bs = [pool.base] ∧ (s.mem pool.base).free = 1 ∧
    (s.mem pool.base).size = HEAP_POOL_SIZE - HEADER_SIZE

theorem Represents.filter_used (h : Represents s cs) :
    (cs.map Cell.addr).filter (fun b => (s.mem b).free = 0) = (usedCells cs).map Cell.addr := by
  rw [filter_map, usedCells]
  congr 1
  refine filter_congr fun c hc => ?_
  have := (h.holds c hc).free_eq_zero_iff
  cases hu : c.used <;> simp [this, hu]

theorem Represents.liveSpan_eq (h : Represents s cs) (hc : c ∈ cs) :
    liveSpan s c.ptr = c.usable := by
  simp only [liveSpan, c.ptr_sub, (h.holds c hc).size]
  rfl

theorem Contiguous.usable_apart (h : Contiguous a cs z) :
    cs.Pairwise fun c d => c.usable.Apart d.usable := by
  refine h.pairwise.imp fun {c d} hcd x hx hx' => ?_
  simp only [Span.mem_iff, Cell.usable, Cell.fin, HEADER_SIZE] at hx hx' hcd
  omega

theorem Contiguous.usable_header_apart (h : Contiguous a cs z) {c d : Cell} (hc : c ∈ cs)
    (hd : d ∈ cs) : c.usable.Apart d.header := by
  obtain ⟨as, bs, rfl⟩ := append_of_mem hc
  obtain ⟨m, h₁, h₂, h₃⟩ := contiguous_append.mp h
  have hb : d.fin ≤ c.addr ∨ d.addr = c.addr ∨ c.fin ≤ d.addr := by
    rcases mem_append.mp hd with hd | hd
    · exact .inl (h₂ ▸ (h₁.mem_bounds d hd).2)
    · rcases mem_cons.mp hd with rfl | hd
      · exact .inr (.inl rfl)
      · exact .inr (.inr (h₃.mem_bounds d hd).1)
  intro x hx hx'
  simp only [Span.mem_iff, Cell.usable, Cell.header, Cell.fin, HEADER_SIZE] at hx hx' hb
  omega

theorem WellFormed.single_of_unused {lo hi : Nat} (h : WellFormed lo hi cs) (hlt : lo < hi)
    (hu : usedCells cs = []) : ∃ c, cs = [c] ∧ c.addr = lo ∧ c.fin = hi ∧ c.used = false := by
  have hall : ∀ c ∈ cs, c.used = false := by
    intro c hc
    have := filter_eq_nil_iff.mp hu c hc
    simpa using this
  match cs, h with
  | [], h => exact absurd h.contiguous hlt.ne
  | [c], h => exact ⟨c, rfl, h.contiguous.1, h.contiguous.2, hall c (by simp)⟩
  | c :: d :: ds, h =>
    have hcd : NotBothFree c d := (isChain_cons_cons.mp h.coalesced).1
    simp [NotBothFree, hall c (by simp), hall d (by simp)] at hcd

/-- Every run of `kmalloc` and `kfree` after `heap_init` leaves the allocator sound. -/
theorem heap_runs_sound {live : List Nat} (h : Reach pool s live) : ∃ bs, Sound pool s live bs := by
  obtain ⟨cs, hinv, hlive⟩ := h.invariant
  have hrep := hinv.represents
  have hcon := hinv.wellFormed.contiguous
  have hmemlive : ∀ p ∈ live, ∃ c ∈ cs, c ∈ usedCells cs ∧ c.ptr = p := by
    intro p hp
    obtain ⟨c, hc, rfl⟩ := mem_map.mp (hlive.mem_iff.mp hp)
    exact ⟨c, mem_of_mem_filter hc, hc, rfl⟩
  have hsize : ∀ c ∈ cs, (s.mem c.addr).size = c.size := fun c hc => (hrep.holds c hc).size
  refine ⟨cs.map Cell.addr, ?_⟩
  constructor
  case links => exact hrep.links
  case increasing =>
    refine pairwise_map.mpr (hcon.pairwise.imp fun {c d} hcd => ?_)
    simp only [Cell.fin, HEADER_SIZE] at hcd
    omega
  case abutting =>
    refine (isChain_map _).mpr (hcon.isChain.imp_of_mem_imp fun c d hc _ hcd => ?_)
    rw [hsize c hc]
    exact hcd
  case total =>
    have hsum := hcon.sum_eq
    rw [map_map, map_congr_left (g := fun c => c.size + HEADER_SIZE)]
    · omega
    · intro c hc
      simp [hsize c hc]
  case coalesced =>
    refine (isChain_map _).mpr
      (hinv.wellFormed.coalesced.imp_of_mem_imp fun c d hc hd hcd => ?_)
    rw [(hrep.holds c hc).free_eq_zero_iff, (hrep.holds d hd).free_eq_zero_iff]
    exact hcd
  case tags =>
    intro b hb
    obtain ⟨c, hc, rfl⟩ := mem_map.mp hb
    have hold := hrep.holds c hc
    rw [hold.free, hold.magic, Cell.freeFlag, Cell.magic]
    cases c.used <;> simp
  case blocks =>
    rw [length_map]
    exact hrep.blocks
  case used =>
    rw [hrep.filter_used, map_map, map_congr_left]
    · exact hrep.used
    · intro c hc
      exact hsize c (mem_of_mem_filter hc)
  case owned =>
    rw [hrep.filter_used, map_map]
    exact hlive
  case aligned =>
    intro p hp
    obtain ⟨c, hc, -, rfl⟩ := hmemlive p hp
    obtain ⟨as, bs, rfl⟩ := append_of_mem hc
    have := hinv.wellFormed.addr_aligned pool.aligned
    simp only [Cell.ptr, HEADER_SIZE, HEAP_ALIGN] at this ⊢
    omega
  case disjoint =>
    refine (hlive.pairwise_iff Span.Apart.symm).mpr (pairwise_map.mpr ?_)
    refine (hcon.usable_apart.filter _).imp_of_mem fun {c d} hc hd hcd => ?_
    rw [hrep.liveSpan_eq (mem_of_mem_filter hc), hrep.liveSpan_eq (mem_of_mem_filter hd)]
    exact hcd
  case noHeader =>
    intro p hp b hb
    obtain ⟨c, hc, -, rfl⟩ := hmemlive p hp
    obtain ⟨d, hd, rfl⟩ := mem_map.mp hb
    rw [hrep.liveSpan_eq hc]
    exact hcon.usable_header_apart hc hd
  case kmallocReturns =>
    intro fuel size hfuel
    rcases kmalloc_cases hinv fuel size with ⟨-, hlt⟩ | ⟨s', hd, -⟩ | ⟨s', c, cs', hd, -⟩
    · rw [length_map] at hfuel
      exact absurd hlt hfuel.not_gt
    · exact ⟨_, hd⟩
    · exact ⟨_, hd⟩
  case kmallocNoPanic =>
    intro fuel size msg
    rcases kmalloc_cases hinv fuel size with ⟨hd, -⟩ | ⟨s', hd, -⟩ | ⟨s', c, cs', hd, -⟩ <;>
      simp [hd]
  case kfreeReturns =>
    intro p hp
    obtain ⟨c, -, hc, rfl⟩ := hmemlive p hp
    obtain ⟨s', -, hd, -⟩ := kfree_spec hinv hc
    exact ⟨s', hd⟩
  case emptied =>
    rintro rfl
    have hu : usedCells cs = [] := map_eq_nil_iff.mp (nil_perm.mp hlive)
    obtain ⟨c, rfl, haddr, hfin, hfree⟩ :=
      hinv.wellFormed.single_of_unused (Nat.lt_add_of_pos_right (by decide)) hu
    have hold := hrep.holds c (by simp)
    rw [← haddr]
    refine ⟨rfl, ?_, ?_⟩
    · rw [hold.free, Cell.freeFlag, hfree]
      rfl
    · rw [hold.size]
      simp only [Cell.fin] at hfin
      omega

/-! ## What a request gets -/

/-- The block at `p` has `size` usable bytes, and they end before the next header or the pool do. -/
structure HoldsRequest (pool : HeapPool) (s : HeapState) (p size : Nat) : Prop where
  usable : size ≤ (liveSpan s p).size
  beforeNext : p + size ≤ (s.mem (p - HEADER_SIZE)).next.getD (pool.base + HEAP_POOL_SIZE)

theorem HeapInv.next_getD (h : HeapInv pool s cs) (hc : c ∈ cs) :
    (s.mem c.addr).next.getD (pool.base + HEAP_POOL_SIZE) = c.fin := by
  obtain ⟨as, bs, rfl⟩ := append_of_mem hc
  obtain ⟨m, -, -, hrest⟩ := contiguous_append.mp h.wellFormed.contiguous
  rw [h.represents.next_eq]
  cases bs with
  | nil => exact Eq.symm hrest
  | cons d bs => exact hrest.1

theorem HeapInv.holdsRequest_iff (h : HeapInv pool s cs) (hc : c ∈ cs) (size : Nat) :
    HoldsRequest pool s c.ptr size ↔ size ≤ c.size := by
  have hspan := h.represents.liveSpan_eq hc
  have hnext := h.next_getD hc
  constructor
  · intro hold
    have husable := hold.usable
    rwa [hspan] at husable
  · intro hle
    refine ⟨hspan ▸ hle, ?_⟩
    rw [c.ptr_sub, hnext]
    exact Nat.add_le_add_left hle _

/-- In every run, for every `size_t` request: a block that `kmalloc` returns holds the request if
and only if rounding the request up does not wrap around. -/
theorem kmalloc_holds_request_iff {s' : HeapState} {live : List Nat} {fuel size p : Nat}
    (hr : Reach pool s live) (hsize : size < 2 ^ 64)
    (hcall : kmalloc fuel size s = .done (some p, s')) :
    HoldsRequest pool s' p size ↔ size + (HEAP_ALIGN - 1) < 2 ^ 64 := by
  obtain ⟨cs, hinv, -⟩ := hr.invariant
  rcases kmalloc_cases hinv fuel size with ⟨hd, -⟩ | ⟨s'', hd, -⟩ |
    ⟨s'', c, cs', hd, hinv', hle, hperm⟩
  · simp [hd] at hcall
  · simp [hd] at hcall
  · obtain ⟨rfl, rfl⟩ : c.ptr = p ∧ s'' = s' := by simpa [hd] using hcall
    have hc : c ∈ cs' := mem_of_mem_filter (hperm.mem_iff.mpr mem_cons_self)
    have hfin := (hinv'.wellFormed.contiguous.mem_bounds c hc).2
    have hstart := (hinv'.wellFormed.contiguous.mem_bounds c hc).1
    rw [hinv'.holdsRequest_iff hc]
    rw [roundUp_eq] at hle
    simp only [Cell.fin, HEAP_POOL_SIZE, HEAP_ALIGN] at *
    omega

/-- A zeroed kernel with its pool at 2 MiB. -/
def bootPool : HeapPool where
  base := 0x200000
  aligned := by decide
  pos := by decide
  inRange := by decide

@[inherit_doc bootPool] def bootHeap : HeapState :=
  { mem := fun _ => ⟨0, 0, 0, none, none⟩, head := none, ready := false,
    stats := ⟨0, 0, 0, 0, 0, 0⟩, lockAcquires := 0 }

/-- Two allocations, and the first one freed. -/
theorem heap_runs_sound_boot :
    ∃ s, Reach bootPool s [0x2000b0] ∧ ∃ bs, Sound bootPool s [0x2000b0] bs := by
  have h₀ : Reach bootPool (heapInit bootPool bootHeap) [] := Reach.init bootHeap
  have h₁ := h₀.kmalloc (rfl : kmalloc 4 100 _ = .done (some 0x200020, _))
  have h₂ := h₁.kmalloc (rfl : kmalloc 4 200 _ = .done (some 0x2000b0, _))
  have h₃ := h₂.kfree (p := 0x200020) (by decide) rfl
  exact ⟨_, h₃, heap_runs_sound h₃⟩

theorem kmalloc_holds_request_boot : ∃ s, kmalloc 1 100 (heapInit bootPool bootHeap) =
    .done (some 0x200020, s) ∧ HoldsRequest bootPool s 0x200020 100 := by
  have hcall : kmalloc 1 100 (heapInit bootPool bootHeap) = .done (some 0x200020, _) := rfl
  exact ⟨_, hcall, (kmalloc_holds_request_iff (.init bootHeap) (by decide) hcall).mpr (by decide)⟩

/-- The largest request gets a block without a single byte. -/
theorem kmalloc_request_wraps : ∃ s, Reach bootPool (heapInit bootPool bootHeap) [] ∧
    kmalloc 1 (2 ^ 64 - 1) (heapInit bootPool bootHeap) = .done (some 0x200020, s) ∧
      (liveSpan s 0x200020).size = 0 ∧ ¬ HoldsRequest bootPool s 0x200020 (2 ^ 64 - 1) := by
  have hcall : kmalloc 1 (2 ^ 64 - 1) (heapInit bootPool bootHeap) = .done (some 0x200020, _) := rfl
  refine ⟨_, .init bootHeap, hcall, rfl, fun hold => ?_⟩
  exact absurd hold.usable (by decide)

/-- A block is allocated and freed again. -/
theorem free_statistic_exact_freed : ∃ s, Reach bootPool s [] ∧ s.stats.frees = 1 ∧
    (heapGetStats s).free = freeBytes s [0x200000] := by
  have h₀ : Reach bootPool (heapInit bootPool bootHeap) [] := .init bootHeap
  have h₁ := h₀.kmalloc (rfl : kmalloc 4 100 _ = .done (some 0x200020, _))
  have h₂ := h₁.kfree (p := 0x200020) (by decide) rfl
  obtain ⟨bs, hbs, -, hiff⟩ := free_statistic_exact_iff h₂
  -- the list leads through the first block only
  cases bs with
  | nil => exact nomatch hbs.head_eq
  | cons b bs =>
    obtain rfl : 0x200000 = b := Option.some.inj hbs.head_eq
    have hcut : IsList _ _ _ ([] ++ 0x200000 :: bs) := hbs
    obtain rfl : bs = [] := head?_eq_none_iff.mp hcut.next_eq.symm
    exact ⟨_, h₂, rfl, hiff.mpr ⟨_, rfl⟩⟩

/-- The first allocation cuts the pool in two, and 32 bytes more than there are count as free. -/
theorem free_statistic_counts_header : ∃ s, Reach bootPool s [0x200020] ∧
    IsList (fun b => (s.mem b).next) (fun b => (s.mem b).prev) s.head [0x200000, 0x200030] ∧
      (heapGetStats s).free = 2097104 ∧ freeBytes s [0x200000, 0x200030] = 2097072 := by
  have hcall : kmalloc 1 16 (heapInit bootPool bootHeap) = .done (some 0x200020, _) := rfl
  exact ⟨_, (Reach.init bootHeap).kmalloc hcall, ⟨rfl, rfl, rfl, rfl, rfl, trivial⟩, rfl, rfl⟩

/-! ## Histories -/

/-- The list of the blocks begins alike, and has the same headers. -/
def SameBlocks (s s' : HeapState) : Prop :=
  s.head = s'.head ∧ ∃ bs, IsList (nextOf s.mem) (prevOf s.mem) s.head bs ∧
    ∀ b ∈ bs, s.mem b = s'.mem b

theorem Represents.header (h : Represents s (as ++ c :: bs)) : s.mem c.addr =
    ⟨c.size, c.magic, c.freeFlag, (bs.map Cell.addr).head?, (as.map Cell.addr).getLast?⟩ := by
  obtain ⟨hsize, hmagic, hfree⟩ := h.holds c (by simp)
  rw [← hsize, ← hmagic, ← hfree, ← h.next_eq, ← h.prev_eq]

theorem Owns.usedCells_perm (h : Owns pool s live cs) : usedCells cs ~
    live.map fun p => ⟨p - HEADER_SIZE, (liveSpan s p).size, true⟩ := by
  refine .trans (.of_eq ?_) (h.owned.map _).symm
  rw [map_map]
  refine ((map_congr_left fun c hc => ?_).trans (map_id _)).symm
  obtain ⟨hmem, hused⟩ := mem_filter.mp hc
  simp only [Function.comp_apply, c.ptr_sub, h.inv.represents.liveSpan_eq hmem, id]
  cases c
  simp_all [Cell.usable]

/-- **The blocks of the heap do not depend on its history**: they are determined by the pointers
that the callers own and the sizes behind them. -/
theorem heap_history_independent {live' : List Nat} (h : Reach pool s live)
    (h' : Reach pool s' live') (hperm : live.Perm live')
    (hsize : ∀ p ∈ live, liveSpan s p = liveSpan s' p) : SameBlocks s s' := by
  obtain ⟨cs, hcs⟩ := h.invariant
  obtain ⟨ds, hds⟩ := h'.invariant
  have hused : usedCells cs = usedCells ds := by
    refine Perm.eq_of_pairwise ?_ (hcs.inv.wellFormed.contiguous.pairwise.filter _)
      (hds.inv.wellFormed.contiguous.pairwise.filter _) ?_
    · intro c d _ _ hcd hdc
      simp only [Cell.fin, HEADER_SIZE] at hcd hdc
      omega
    · refine (hcs.usedCells_perm.trans (.of_eq ?_)).trans
        ((hperm.map _).trans hds.usedCells_perm.symm)
      exact map_congr_left fun p hp => by rw [hsize p hp]
  obtain rfl : cs = ds := by
    rw [hcs.inv.wellFormed.contiguous.eq_layout hcs.inv.wellFormed.coalesced, hused,
      ← hds.inv.wellFormed.contiguous.eq_layout hds.inv.wellFormed.coalesced]
  refine ⟨?_, _, hcs.inv.represents.links, ?_⟩
  · exact hcs.inv.represents.links.head_eq.trans hds.inv.represents.links.head_eq.symm
  · intro b hb
    obtain ⟨c, hc, rfl⟩ := mem_map.mp hb
    obtain ⟨as, bs, rfl⟩ := append_of_mem hc
    rw [hcs.inv.represents.header, hds.inv.represents.header]

/-- What is allocated and freed again leaves no trace. -/
theorem heap_history_independent_boot : ∃ s, Reach bootPool s [] ∧
    SameBlocks s (heapInit bootPool bootHeap) := by
  have h₀ : Reach bootPool (heapInit bootPool bootHeap) [] := .init bootHeap
  have h₁ := h₀.kmalloc (rfl : kmalloc 4 100 _ = .done (some 0x200020, _))
  have h₂ := h₁.kfree (p := 0x200020) (by decide) rfl
  exact ⟨_, h₂, heap_history_independent h₂ h₀ (.refl _) (by simp)⟩

end

end AiosKernel.Heap
