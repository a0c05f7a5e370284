/-
# `AiosKernel.Heap.Cells` — what the heap is for: a pool cut into cells

The abstract heap is the list of the cells the pool is cut into, in address
order.  A cell is a header and the bytes after it.  `WellFormed` is the whole
of what the allocator promises about the shape of the pool: the cells fill it
without gaps, their sizes keep every cell aligned, and free neighbours have been
joined.  Handing out a cell, whole or cut, and taking one back keep it.
-/
import AiosKernel.Heap.Model
import AiosKernel.Lib.Tiling

namespace AiosKernel.Heap

open Tiling List

/-- A header at `addr` and the `size` bytes after it. -/
structure Cell where
  addr : Nat
  size : Nat
  used : Bool
  deriving DecidableEq, Repr

namespace Cell

/-- The first address after the cell. -/
def fin (c : Cell) : Nat := c.addr + HEADER_SIZE + c.size

def header (c : Cell) : Span := ⟨c.addr, HEADER_SIZE⟩

def usable (c : Cell) : Span := ⟨c.addr + HEADER_SIZE, c.size⟩

/-- The address `kmalloc` returns for the cell. -/
def ptr (c : Cell) : Nat := c.addr + HEADER_SIZE

theorem ptr_sub (c : Cell) : c.ptr - HEADER_SIZE = c.addr := Nat.add_sub_cancel _ _

end Cell

/-- One of two neighbours is in use. -/
def NotBothFree (c d : Cell) : Prop := c.used = true ∨ d.used = true

/-- The cells follow each other without gaps from `a` to `z`. -/
def Contiguous : Nat → List Cell → Nat → Prop
  | a, [], z => a = z
  | a, c :: cs, z => c.addr = a ∧ Contiguous c.fin cs z

def Cell.span (c : Cell) : Span := ⟨c.addr, HEADER_SIZE + c.size⟩

variable {a z : Nat} {cs : List Cell}

theorem contiguous_iff :
    Contiguous a cs z ↔ Abut a (cs.map Cell.span) z := by
  induction cs generalizing a with
  | nil => exact Iff.rfl
  | cons c cs ih => simp [Contiguous, Abut, ih, Cell.span, Cell.fin, Span.fin, Nat.add_assoc]

theorem contiguous_append {xs ys : List Cell} :
    Contiguous a (xs ++ ys) z ↔ ∃ m, Contiguous a xs m ∧ Contiguous m ys z := by
  simp only [contiguous_iff, map_append, abut_append]

theorem Contiguous.le (h : Contiguous a cs z) : a ≤ z :=
  (contiguous_iff.mp h).le

theorem Contiguous.mem_bounds (h : Contiguous a cs z) :
    ∀ c ∈ cs, a ≤ c.addr ∧ c.fin ≤ z := by
  intro c hc
  obtain ⟨xs, ys, rfl⟩ := append_of_mem hc
  obtain ⟨m, h₁, h₂, h₃⟩ := contiguous_append.mp h
  exact ⟨h₂ ▸ h₁.le, h₃.le⟩

theorem Contiguous.pairwise :
    ∀ {a : Nat} {cs : List Cell} {z : Nat}, Contiguous a cs z →
      cs.Pairwise fun c d => c.fin ≤ d.addr
  | _, [], _, _ => List.Pairwise.nil
  | _, _ :: _, _, ⟨_, h'⟩ =>
    pairwise_cons.mpr ⟨fun d hd => (h'.mem_bounds d hd).1, h'.pairwise⟩

theorem Contiguous.isChain :
    ∀ {a : Nat} {cs : List Cell} {z : Nat}, Contiguous a cs z → cs.IsChain fun c d => c.fin = d.addr
  | _, [], _, _ => List.IsChain.nil
  | _, [_], _, _ => List.IsChain.singleton _
  | _, _ :: _ :: _, _, ⟨_, h'⟩ => List.IsChain.cons_cons h'.1.symm h'.isChain

theorem Contiguous.sum_eq :
    ∀ {a : Nat} {cs : List Cell} {z : Nat}, Contiguous a cs z →
      a + (cs.map fun c => c.size + HEADER_SIZE).sum = z
  | _, [], _, h => h
  | _, c :: cs, _, ⟨h, h'⟩ => by
    have := h'.sum_eq
    simp only [Cell.fin] at this
    simp only [map_cons, sum_cons]
    omega

/-- The shape of the pool between `lo` and `hi`. -/
structure WellFormed (lo hi : Nat) (cs : List Cell) : Prop where
  contiguous : Contiguous lo cs hi
  aligned : ∀ c ∈ cs, c.size % HEAP_ALIGN = 0
  coalesced : cs.IsChain NotBothFree

def usedCells (cs : List Cell) : List Cell := cs.filter (·.used)

/-- The bytes in use, headers excluded. -/
def usedBytes (cs : List Cell) : Nat := ((usedCells cs).map Cell.size).sum

section

variable {lo hi : Nat} {as bs : List Cell} {c : Cell}

theorem usedBytes_mid : usedBytes (as ++ c :: bs) =
    usedBytes (as ++ bs) + if c.used then c.size else 0 := by
  simp only [usedBytes, usedCells, filter_append, filter_cons]
  split
  · simp only [map_append, map_cons, sum_append, sum_cons]
    omega
  · simp

theorem usedBytes_cons : usedBytes (c :: cs) = usedBytes cs + if c.used then c.size else 0 :=
  @usedBytes_mid [] cs c

theorem Contiguous.usedBytes_le :
    ∀ {a : Nat} {cs : List Cell} {z : Nat}, Contiguous a cs z → a + usedBytes cs ≤ z
  | _, [], _, h => by simpa [usedBytes, usedCells] using h.le
  | _, d :: ds, _, ⟨h, h'⟩ => by
    have ih := h'.usedBytes_le
    rw [usedBytes_cons]
    simp only [Cell.fin] at ih
    split <;> omega

theorem Contiguous.length_le (h : Contiguous a cs z) :
    a + cs.length * HEADER_SIZE ≤ z := by
  induction cs generalizing a with
  | nil => simpa using h.le
  | cons c cs ih =>
    have := ih h.2
    have hc := h.1
    simp only [Cell.fin, HEADER_SIZE, length_cons] at *
    omega

theorem WellFormed.addr_aligned (h : WellFormed lo hi (as ++ c :: bs))
    (hlo : lo % HEAP_ALIGN = 0) : c.addr % HEAP_ALIGN = 0 := by
  have key : ∀ {a : Nat} {xs : List Cell} {z : Nat}, Contiguous a xs z → a % HEAP_ALIGN = 0 →
      (∀ c ∈ xs, c.size % HEAP_ALIGN = 0) → z % HEAP_ALIGN = 0 := by
    intro a xs
    induction xs generalizing a with
    | nil => rintro z rfl ha _; exact ha
    | cons x xs ih =>
      rintro z ⟨hx, hxs⟩ ha hall
      refine ih hxs ?_ fun c hc => hall c (mem_cons_of_mem _ hc)
      have := hall x mem_cons_self
      simp only [Cell.fin, HEAP_ALIGN, HEADER_SIZE] at *
      omega
  obtain ⟨m, h₁, h₂, -⟩ := contiguous_append.mp h.contiguous
  rw [h₂]
  exact key h₁ hlo fun d hd => h.aligned d (by simp [hd])

/-! ## Handing out -/

/-- A free cell may be marked used: that separates more neighbours, never fewer. -/
theorem WellFormed.take (h : WellFormed lo hi (as ++ c :: bs)) :
    WellFormed lo hi (as ++ { c with used := true } :: bs) := by
  obtain ⟨m, h₁, h₂, h₃⟩ := contiguous_append.mp h.contiguous
  obtain ⟨hca, hcb, hseam⟩ := isChain_append.mp h.coalesced
  refine ⟨contiguous_append.mpr ⟨m, h₁, h₂, h₃⟩, ?_, ?_⟩
  · simpa only [forall_mem_append, forall_mem_cons] using h.aligned
  · refine isChain_append.mpr ⟨hca, hcb.tail.cons fun d _ => .inl rfl, fun x _ y hy => ?_⟩
    cases hy
    exact .inr rfl

/-- A free cell may be cut: the part cut off stays free, its other neighbour is in use. -/
theorem WellFormed.cut {n : Nat} (h : WellFormed lo hi (as ++ c :: bs)) (hc : c.used = false)
    (hn : n % HEAP_ALIGN = 0) (hlt : n + HEADER_SIZE ≤ c.size) :
    WellFormed lo hi (as ++ { c with size := n, used := true } ::
      ⟨c.addr + HEADER_SIZE + n, c.size - n - HEADER_SIZE, false⟩ :: bs) := by
  obtain ⟨m, h₁, h₂, h₃⟩ := contiguous_append.mp h.contiguous
  obtain ⟨hca, hcb, hseam⟩ := isChain_append.mp h.coalesced
  have haligned := h.aligned
  simp only [forall_mem_append, forall_mem_cons] at haligned
  refine ⟨contiguous_append.mpr ⟨m, h₁, h₂, rfl, ?_⟩, ?_, ?_⟩
  · have : (⟨c.addr + HEADER_SIZE + n, c.size - n - HEADER_SIZE, false⟩ : Cell).fin = c.fin := by
      simp only [Cell.fin]
      omega
    rw [this]
    exact h₃
  · simp only [forall_mem_append, forall_mem_cons]
    refine ⟨haligned.1, hn, ?_, haligned.2.2⟩
    simp only [HEAP_ALIGN, HEADER_SIZE] at *
    omega
  · refine isChain_append.mpr ⟨hca, List.IsChain.cons_cons (.inl rfl) ?_, fun x _ y hy => ?_⟩
    · refine hcb.tail.cons fun d hd => .inr ?_
      exact (hcb.rel_head? hd).resolve_left (by simp [hc])
    · cases hy
      exact .inr rfl

/-! ## Taking back -/

/-- Two adjacent cells joined under the first header. -/
def Cell.join (c d : Cell) : Cell := { c with size := c.size + (HEADER_SIZE + d.size) }

theorem contiguous_join {d : Cell} (h : Contiguous a (as ++ c :: d :: bs) z) :
    Contiguous a (as ++ c.join d :: bs) z := by
  obtain ⟨m, h₁, h₂, h₃, h₄⟩ := contiguous_append.mp h
  refine contiguous_append.mpr ⟨m, h₁, h₂, ?_⟩
  have : (c.join d).fin = d.fin := by
    simp only [Cell.join, Cell.fin] at *
    omega
  rwa [this]

theorem aligned_join {d : Cell} (h : ∀ e ∈ as ++ c :: d :: bs, e.size % HEAP_ALIGN = 0) :
    ∀ e ∈ as ++ c.join d :: bs, e.size % HEAP_ALIGN = 0 := by
  simp only [forall_mem_append, forall_mem_cons] at h ⊢
  refine ⟨h.1, ?_, h.2.2.2⟩
  simp only [Cell.join, HEAP_ALIGN, HEADER_SIZE] at *
  omega

/-! ## What the cells in use determine -/

/-- The free cell from `a` to `z`, if there is room. -/
def gap (a z : Nat) : List Cell := if a < z then [⟨a, z - a - HEADER_SIZE, false⟩] else []

/-- The cells in use, with a free cell in every gap. -/
def layout : Nat → List Cell → Nat → List Cell
  | a, [], z => gap a z
  | a, u :: us, z => gap a u.addr ++ u :: layout u.fin us z

theorem gap_self (a : Nat) : gap a a = [] := if_neg (Nat.lt_irrefl a)

theorem gap_fin (hc : c.used = false) : gap c.addr c.fin = [c] := by
  have hlt : c.addr < c.fin := by
    simp only [Cell.fin, HEADER_SIZE]
    omega
  rw [gap, if_pos hlt]
  cases c
  simp_all [Cell.fin]
  omega

theorem Contiguous.eq_layout (h : Contiguous a cs z) (hchain : cs.IsChain NotBothFree) :
    cs = layout a (usedCells cs) z := by
  induction cs generalizing a with
  | nil =>
    obtain rfl : a = z := h
    exact (gap_self a).symm
  | cons c cs ih =>
    obtain ⟨rfl, htail⟩ := h
    have hrest := ih htail hchain.tail
    cases hc : c.used with
    | true =>
      rw [usedCells, filter_cons_of_pos hc, layout, gap_self, nil_append, ← usedCells, ← hrest]
    | false =>
      rw [usedCells, filter_cons_of_neg (by simp [hc]), ← usedCells]
      cases cs with
      | nil =>
        obtain rfl : c.fin = z := htail
        exact (gap_fin hc).symm
      | cons d cs =>
        -- the next cell is in use and begins where this one ends
        have hd : d.used = true := (isChain_cons_cons.mp hchain).1.resolve_left (by simp [hc])
        rw [usedCells, filter_cons_of_pos hd, layout] at hrest ⊢
        rw [htail.1, gap_self] at hrest
        rw [htail.1, gap_fin hc]
        exact congrArg (c :: ·) hrest

end

end AiosKernel.Heap
