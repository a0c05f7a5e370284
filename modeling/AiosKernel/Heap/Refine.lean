/-
# `AiosKernel.Heap.Refine` — the headers in memory represent the cells

`Represents s cs`: the headers reached from `heap_head` are those of the cells
`cs`, in order and linked both ways, each carries its cell's size and tag, and
the two statistics the allocator derives from the cells are right.

Every write sequence of `heap.c` is matched with one move on the cells:
`splitBlock` with a cut, `takeBlock` with marking used, `markFree` with marking
free, and the two halves of `coalesce` with a join.
-/
import AiosKernel.Lib.Slots
import AiosKernel.Heap.Cells
import AiosKernel.Lib.DList

namespace AiosKernel.Heap

open Word DList Slots HeapState List

def Cell.magic (c : Cell) : Nat := if c.used then HEAP_MAGIC_USED else HEAP_MAGIC_FREE

def Cell.freeFlag (c : Cell) : Nat := if c.used then 0 else 1

/-- The header `b` carries the data of the cell `c`. -/
structure Holds (b : HeapBlock) (c : Cell) : Prop where
  size : b.size = c.size
  magic : b.magic = c.magic
  free : b.free = c.freeFlag

/-- The forward links in memory. -/
def nextOf (mem : Nat → HeapBlock) (a : Nat) : Option Nat := (mem a).next

/-- The backward links in memory. -/
def prevOf (mem : Nat → HeapBlock) (a : Nat) : Option Nat := (mem a).prev

/-- The state of the allocator represents the cells `cs`. -/
structure Represents (s : HeapState) (cs : List Cell) : Prop where
  ready : s.ready = true
  links : IsList (nextOf s.mem) (prevOf s.mem) s.head (cs.map Cell.addr)
  holds : ∀ c ∈ cs, Holds (s.mem c.addr) c
  blocks : s.stats.blocks = cs.length
  used : s.stats.used = usedBytes cs

theorem Holds.free_eq_zero_iff {b : HeapBlock} {c : Cell} (h : Holds b c) :
    b.free = 0 ↔ c.used = true := by
  rw [h.free, Cell.freeFlag]
  cases c.used <;> simp

section

variable {s : HeapState} {as bs : List Cell} {c : Cell}

section

variable (h : Represents s (as ++ c :: bs))
include h

theorem Represents.list : IsList (nextOf s.mem) (prevOf s.mem) s.head
    (as.map Cell.addr ++ c.addr :: bs.map Cell.addr) := by
  rw [← map_cons, ← map_append]
  exact h.links

theorem Represents.addr_ne : ∀ d ∈ as ++ bs, d.addr ≠ c.addr := by
  obtain ⟨hna, hnb⟩ := h.list.notMem
  intro d hm he
  rcases mem_append.mp hm with hm | hm
  · exact hna (he ▸ mem_map_of_mem hm)
  · exact hnb (he ▸ mem_map_of_mem hm)

theorem Represents.next_eq : (s.mem c.addr).next = (bs.map Cell.addr).head? := h.list.next_eq

theorem Represents.prev_eq : (s.mem c.addr).prev = (as.map Cell.addr).getLast? := h.list.prev_eq

end

/-! ## The first-fit loop -/

/-- The loop looks at the cells in order: it stops at the first free cell that is large
enough, or at the end, or for want of fuel. -/
theorem firstFit_cases {mem : Nat → HeapBlock} {n : Nat} :
    ∀ {fuel : Nat} {p : Option Nat} {cs : List Cell},
      Seg (nextOf mem) (prevOf mem) p (cs.map Cell.addr) none →
      (∀ c ∈ cs, Holds (mem c.addr) c) →
      (firstFit mem n fuel (cs.map Cell.addr).head? = .diverge ∧ fuel < cs.length) ∨
      firstFit mem n fuel (cs.map Cell.addr).head? = .done none ∨
      ∃ as c bs, cs = as ++ c :: bs ∧ c.used = false ∧ n ≤ c.size ∧
        firstFit mem n fuel (cs.map Cell.addr).head? = .done (some c.addr)
  | fuel, _, [], _, _ => by
    refine .inr (.inl ?_)
    cases fuel <;> rfl
  | 0, _, c :: cs, _, _ => .inl ⟨rfl, by simp⟩
  | fuel + 1, _, c :: cs, hseg, hold => by
    have hc := hold c mem_cons_self
    have hnext : (mem c.addr).next = (cs.map Cell.addr).head? := by
      simpa [nextOf] using hseg.2.1
    have hmagic : ¬ ((mem c.addr).magic ≠ HEAP_MAGIC_FREE ∧ (mem c.addr).magic ≠ HEAP_MAGIC_USED) := by
      rw [hc.magic, Cell.magic]
      cases c.used <;> simp
    have hstep : firstFit mem n (fuel + 1) ((c :: cs).map Cell.addr).head? =
        if (mem c.addr).free ≠ 0 ∧ n ≤ (mem c.addr).size then .done (some c.addr)
        else firstFit mem n fuel (cs.map Cell.addr).head? := by
      simp only [map_cons, head?_cons, firstFit, if_neg hmagic, hnext]
    rw [hstep]
    by_cases hfit : (mem c.addr).free ≠ 0 ∧ n ≤ (mem c.addr).size
    · refine .inr (.inr ⟨[], c, cs, rfl, ?_, hc.size ▸ hfit.2, if_pos hfit⟩)
      have := mt hc.free_eq_zero_iff.mpr hfit.1
      simpa using this
    · rw [if_neg hfit]
      rcases firstFit_cases hseg.2.2 fun d hd => hold d (mem_cons_of_mem _ hd) with
        ⟨h₁, h₂⟩ | h₁ | ⟨as, d, bs, rfl, h₁, h₂, h₃⟩
      · exact .inl ⟨h₁, by simpa using h₂⟩
      · exact .inr (.inl h₁)
      · exact .inr (.inr ⟨c :: as, d, bs, rfl, h₁, h₂, h₃⟩)

/-! ## Writes that leave the links alone -/

theorem Represents.setData (h : Represents s (as ++ c :: bs)) {c' : Cell} {s' : HeapState}
    (b : HeapBlock) (haddr : c'.addr = c.addr)
    (hmem : ∀ y, s'.mem y = if y = c.addr then b else s.mem y)
    (hhead : s'.head = s.head) (hready : s'.ready = s.ready)
    (hn : b.next = (s.mem c.addr).next) (hp : b.prev = (s.mem c.addr).prev)
    (hc : Holds b c') (hblocks : s'.stats.blocks = s.stats.blocks)
    (hused : s'.stats.used = usedBytes (as ++ c' :: bs)) : Represents s' (as ++ c' :: bs) where
  ready := hready.trans h.ready
  links := by
    have hmap : (as ++ c' :: bs).map Cell.addr = (as ++ c :: bs).map Cell.addr := by
      simp [haddr]
    rw [hmap, hhead]
    refine h.links.congr fun y _ => ?_
    by_cases hy : y = c.addr
    · subst hy
      simp [nextOf, prevOf, hmem, hn, hp]
    · simp [nextOf, prevOf, hmem, hy]
  holds d hd := by
    rcases mem_split.mp hd with rfl | hd
    · rw [hmem, haddr, if_pos rfl]
      exact hc
    · rw [hmem, if_neg (h.addr_ne d hd)]
      exact h.holds d (mem_split.mpr (.inr hd))
  blocks := by rw [hblocks, h.blocks]; simp
  used := hused

theorem Represents.take (h : Represents s (as ++ c :: bs)) (hc : c.used = false)
    (hlt : usedBytes (as ++ bs) + c.size < 2 ^ 64) :
    Represents (takeBlock c.addr s) (as ++ { c with used := true } :: bs) := by
  have hold := h.holds c (by simp)
  refine h.setData { s.mem c.addr with magic := HEAP_MAGIC_USED, free := 0 } rfl (fun y => ?_)
    rfl rfl rfl rfl ⟨hold.size, rfl, rfl⟩ rfl ?_
  · simp only [takeBlock, setStats_mem, setBlock_mem]
  · simp only [takeBlock, setStats_stats, setBlock_stats, setBlock_mem, if_true, h.used, hold.size]
    rw [usedBytes_mid, usedBytes_mid, hc]
    exact u64_eq hlt

theorem Represents.mark (h : Represents s (as ++ c :: bs)) (hc : c.used = true)
    (hlt : usedBytes (as ++ bs) + c.size < 2 ^ 64) :
    Represents (markFree c.addr s) (as ++ { c with used := false } :: bs) := by
  have hold := h.holds c (by simp)
  refine h.setData { s.mem c.addr with magic := HEAP_MAGIC_FREE, free := 1 } rfl (fun y => ?_)
    rfl rfl rfl rfl ⟨hold.size, rfl, rfl⟩ rfl ?_
  · simp only [markFree, setStats_mem, setBlock_mem]
  · simp only [markFree, setStats_stats, setBlock_stats, h.used, hold.size]
    rw [usedBytes_mid, usedBytes_mid, hc]
    simp only [if_true, Bool.false_eq_true, if_false, Nat.add_zero]
    rw [sub64_eq (by omega) (by omega)]
    omega

/-! ## Writes that edit the links -/

theorem splitBlock_mem {cur n : Nat} (hself : (s.mem cur).next ≠ some cur)
    (hfresh : (s.mem cur).next ≠ some (cur + HEADER_SIZE + n))
    (hrest : HEADER_SIZE + HEAP_ALIGN < sub64 (s.mem cur).size n) (y : Nat) :
    (splitBlock cur n s).mem y =
      if y = cur then { s.mem cur with next := some (cur + HEADER_SIZE + n), size := n }
      else if (s.mem cur).next = some y then
        { s.mem y with prev := some (cur + HEADER_SIZE + n) }
      else if y = cur + HEADER_SIZE + n then
        { size := sub64 (sub64 (s.mem cur).size n) HEADER_SIZE, magic := HEAP_MAGIC_FREE,
          free := 1, next := (s.mem cur).next, prev := some cur }
      else s.mem y := by
  have hcs : cur ≠ cur + HEADER_SIZE + n := by
    simp only [HEADER_SIZE]
    omega
  simp only [splitBlock, if_pos hrest, setStats_mem, setBlock_mem,
    setBlock?_mem, if_neg hcs, if_neg hself]
  by_cases hy : y = cur
  · simp [hy]
  · by_cases hy' : (s.mem cur).next = some y
    · have hys : y ≠ cur + HEADER_SIZE + n := fun he => hfresh (he ▸ hy')
      simp [hy', hys]
    · simp [hy']

theorem Represents.split {n lo hi : Nat} (h : Represents s (as ++ c :: bs))
    (hcon : Contiguous lo (as ++ c :: bs) hi) (hhi : hi ≤ 2 ^ 64) (hc : c.used = false)
    (hn : n ≤ c.size) (hrest : HEADER_SIZE + HEAP_ALIGN < c.size - n)
    (hlen : (as ++ c :: bs).length + 1 < 2 ^ 32) :
    Represents (splitBlock c.addr n s) (as ++ { c with size := n } ::
      ⟨c.addr + HEADER_SIZE + n, c.size - n - HEADER_SIZE, false⟩ :: bs) := by
  have hold := h.holds c (by simp)
  have hnext := h.next_eq
  obtain ⟨m, hca, hcm, hcb⟩ := contiguous_append.mp hcon
  have hfin : c.fin ≤ hi := (hcon.mem_bounds c (by simp)).2
  -- the new header lies strictly inside the old cell, so it is no other cell's header
  have hfresh : ∀ d ∈ as ++ c :: bs, d.addr ≠ c.addr + HEADER_SIZE + n := by
    simp only [Cell.fin, HEADER_SIZE, HEAP_ALIGN] at hrest hcb ⊢
    refine forall_mem_append.mpr
      ⟨fun d hd => ?_, forall_mem_cons.mpr ⟨by omega, fun d hd => ?_⟩⟩
    · have := (hca.mem_bounds d hd).2
      simp only [Cell.fin, HEADER_SIZE] at this
      omega
    · have := (hcb.mem_bounds d hd).1
      omega
  have hrem : sub64 (s.mem c.addr).size n = c.size - n := by
    rw [hold.size]
    simp only [Cell.fin, HEADER_SIZE] at hfin
    exact sub64_eq hn (by omega)
  have hrem' : sub64 (c.size - n) HEADER_SIZE = c.size - n - HEADER_SIZE := by
    simp only [Cell.fin, HEADER_SIZE, HEAP_ALIGN] at hfin hrest ⊢
    exact sub64_eq (by omega) (by omega)
  have hnf : (s.mem c.addr).next ≠ some (c.addr + HEADER_SIZE + n) := by
    rw [hnext]
    cases bs with
    | nil => simp
    | cons b bs => simpa using hfresh b (by simp)
  have hself : (s.mem c.addr).next ≠ some c.addr := h.list.next_ne_self
  have hmem := splitBlock_mem hself hnf (hrem ▸ hrest)
  have hne := h.addr_ne
  have hnc : c.addr ≠ c.addr + HEADER_SIZE + n := hfresh c (by simp)
  rw [hrem, hrem'] at hmem
  have hstats : (splitBlock c.addr n s).stats =
      { s.stats with blocks := u32 (s.stats.blocks + 1) } := by
    simp only [splitBlock, hrem, if_pos hrest, setStats_stats, setBlock_stats, setBlock?_stats]
  -- the other headers keep their data: at most a backward link was written
  have hframe : ∀ d ∈ as ++ bs, Holds ((splitBlock c.addr n s).mem d.addr) d := by
    intro d hd
    have hd' : d ∈ as ++ c :: bs := mem_split.mpr (.inr hd)
    have hdata := h.holds d hd'
    rw [hmem, if_neg (hne d hd), if_neg (hfresh d hd')]
    split <;> exact { hdata with }
  have hready : (splitBlock c.addr n s).ready = s.ready := by
    simp only [splitBlock, hrem, if_pos hrest, setStats_ready, setBlock_ready, setBlock?_ready]
  have hhead : (splitBlock c.addr n s).head = s.head := by
    simp only [splitBlock, hrem, if_pos hrest, setStats_head, setBlock_head, setBlock?_head]
  constructor
  · exact hready.trans h.ready
  · simp only [map_append, map_cons]
    rw [hhead]
    refine h.list.insertAfter ?_ (fun y => ?_) (fun y => ?_)
    · intro hm
      obtain ⟨d, hd, he⟩ := mem_map.mp (by simpa using hm : _ ∈ (as ++ c :: bs).map Cell.addr)
      exact hfresh d hd he
    · simp only [nextOf, hmem]
      split
      · rfl
      · by_cases hy : y = c.addr + HEADER_SIZE + n
        · rw [hy, if_neg hnf, if_pos rfl, if_pos rfl]
        · split <;> rfl
    · show ((splitBlock c.addr n s).mem y).prev = if y = c.addr + HEADER_SIZE + n then some c.addr
        else if (s.mem c.addr).next = some y then _ else (s.mem y).prev
      rw [hmem]
      by_cases hy : y = c.addr + HEADER_SIZE + n
      · rw [hy, if_neg hnc.symm, if_neg hnf, if_pos rfl, if_pos rfl]
      · rw [if_neg hy, if_neg hy]
        by_cases hyc : y = c.addr
        · rw [hyc, if_pos rfl, if_neg hself]
        · rw [if_neg hyc]
          split <;> rfl
  · intro d hd
    rcases mem_split.mp hd with rfl | hd
    · rw [hmem, if_pos rfl]
      exact ⟨rfl, hold.magic, hold.free⟩
    rcases mem_split.mp hd with rfl | hd
    · rw [hmem, if_neg hnc.symm, if_neg hnf, if_pos rfl]
      exact ⟨rfl, rfl, rfl⟩
    · exact hframe d hd
  · rw [hstats, h.blocks]
    simp only [length_append, length_cons] at hlen ⊢
    rw [u32_eq hlen]
    omega
  · rw [hstats, h.used]
    simp [usedBytes_mid, hc]

section

variable (b nx : Nat)

@[simp] theorem absorb_ready : (absorb b nx s).ready = s.ready := by
  simp [absorb]

@[simp] theorem absorb_head : (absorb b nx s).head = s.head := by
  simp [absorb]

@[simp] theorem absorb_stats :
    (absorb b nx s).stats = { s.stats with blocks := sub32 s.stats.blocks 1 } := by
  simp [absorb]

end

theorem absorb_mem {b nx : Nat} (hbn : b ≠ nx) (hself : (s.mem nx).next ≠ some nx)
    (hback : (s.mem nx).next ≠ some b) (y : Nat) :
    (absorb b nx s).mem y =
      if y = nx then { s.mem nx with magic := 0 }
      else if y = b then
        { s.mem b with
          size := u64 ((s.mem b).size + (HEADER_SIZE + (s.mem nx).size)),
          next := (s.mem nx).next }
      else if (s.mem nx).next = some y then { s.mem y with prev := some b }
      else s.mem y := by
  simp only [absorb, setStats_mem, setBlock_mem, setBlock?_mem,
    if_neg hbn.symm, if_true, if_neg hself]
  by_cases hy : y = nx
  · simp [hy]
  · by_cases hy' : y = b
    · simp only [hy', if_true, if_neg hback]
    · simp [hy']

theorem Represents.absorb {d : Cell} (h : Represents s (as ++ c :: d :: bs))
    (hc : c.used = false) (hd : d.used = false) (hsz : c.size + (HEADER_SIZE + d.size) < 2 ^ 64)
    (hlen : (as ++ c :: d :: bs).length < 2 ^ 32) :
    Represents (absorb c.addr d.addr s) (as ++ c.join d :: bs) := by
  have h' : Represents s ((as ++ [c]) ++ d :: bs) := by simpa using h
  have hned := h'.addr_ne
  have hnec := h.addr_ne
  have hcd : c.addr ≠ d.addr := hned c (by simp)
  have hprev : prevOf s.mem d.addr = some c.addr := by
    rw [h'.list.prev_eq]
    simp
  have hback : (s.mem d.addr).next ≠ some c.addr := h'.list.prev_ne_next hprev
  have hmem := absorb_mem hcd h'.list.next_ne_self hback
  have hframe : ∀ e ∈ as ++ bs, Holds ((Heap.absorb c.addr d.addr s).mem e.addr) e := by
    intro e he
    have hec : e ∈ as ++ d :: bs := mem_split.mpr (.inr he)
    have hdata := h.holds e (mem_split.mpr (.inr hec))
    have hed : e ∈ as ++ [c] ++ bs := by
      rw [append_assoc]
      exact mem_split.mpr (.inr he)
    rw [hmem, if_neg (hned e hed), if_neg (hnec e hec)]
    split <;> exact { hdata with }
  have hholdc := h.holds c (by simp)
  have hholdd := h.holds d (by simp)
  constructor
  · exact (absorb_ready _ _).trans h.ready
  · have hgoal : (as ++ c.join d :: bs).map Cell.addr =
        (as ++ [c]).map Cell.addr ++ bs.map Cell.addr := by
      simp [Cell.join]
    rw [hgoal, absorb_head]
    refine h'.list.unlink (fun y hy => ?_) (fun y hy => ?_) ?_
    · simp only [nextOf, hmem, if_neg hy, hprev, Option.some.injEq, @eq_comm _ c.addr y]
      split
      · rfl
      · split <;> rfl
    · rw [hprev]
      show ((Heap.absorb c.addr d.addr s).mem y).prev =
        if (s.mem d.addr).next = some y then some c.addr else (s.mem y).prev
      rw [hmem, if_neg hy]
      by_cases hyc : y = c.addr
      · rw [hyc, if_pos rfl, if_neg hback]
      · rw [if_neg hyc]
        split <;> rfl
    · rw [hprev]
      rfl
  · intro e he
    rcases mem_split.mp he with rfl | he
    · have haddr : (c.join d).addr = c.addr := rfl
      rw [haddr, hmem, if_neg hcd, if_pos rfl]
      refine ⟨?_, hholdc.magic, hholdc.free⟩
      simp only [hholdc.size, hholdd.size, Cell.join]
      exact u64_eq hsz
    · exact hframe e he
  · rw [absorb_stats, h.blocks]
    simp only [length_append, length_cons] at hlen ⊢
    rw [sub32_eq (by omega) (by omega)]
    omega
  · rw [absorb_stats, h.used]
    simp [usedBytes_mid, hc, hd, Cell.join]

end

end AiosKernel.Heap
