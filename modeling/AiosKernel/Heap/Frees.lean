/-
# `AiosKernel.Heap.Frees` — freeing a block twice

A session is a run of the allocator together with its callers, who write into
their allocations as they like.  It keeps the pointers that were freed since the
last `kmalloc`.  The header before such a pointer may be a header no longer, but
bytes somewhere inside a merged free block; still nothing makes it look
allocated again, and a second `kfree` panics.
-/
import AiosKernel.Heap.Runs

namespace AiosKernel.Heap

open Word Tiling HeapState List

/-- The callers may have written any bytes of the allocations `live`: a header is as it was if
none of its bytes belongs to one. -/
def WritesInside (live : List Nat) (s : HeapState) (mem : Nat → HeapBlock) : Prop :=
  ∀ b, (∀ p ∈ live, (liveSpan s p).Apart ⟨b, HEADER_SIZE⟩) → mem b = s.mem b

/-- A run of the allocator and its callers: the state, the pointers that are live, and those
freed since the last `kmalloc`. -/
inductive Session (pool : HeapPool) : HeapState → List Nat → List Nat → Prop where
  | init (s : HeapState) : Session pool (heapInit pool s) [] []
  | kmalloc {s s' : HeapState} {live stale : List Nat} {fuel size : Nat} {r : Option Nat} :
      Session pool s live stale → kmalloc fuel size s = .done (r, s') →
      Session pool s' (r.toList ++ live) []
  | kfree {s s' : HeapState} {live stale : List Nat} {p : Nat} :
      Session pool s live stale → p ∈ live → kfree (some p) s = .done s' →
      Session pool s' (live.erase p) (p :: stale)
  | kfreeNull {s s' : HeapState} {live stale : List Nat} :
      Session pool s live stale → Heap.kfree none s = .done s' → Session pool s' live stale
  | write {s : HeapState} {live stale : List Nat} {mem : Nat → HeapBlock} :
      Session pool s live stale → WritesInside live s mem →
      Session pool { s with mem := mem } live stale

section

variable {pool : HeapPool} {s s' : HeapState} {live stale : List Nat} {cs : List Cell} {p : Nat}

/-! ## Writes -/

theorem Owns.apart_of_usable (h : Owns pool s live cs) {b : Nat}
    (hb : ∀ c ∈ usedCells cs, c.usable.Apart ⟨b, HEADER_SIZE⟩) :
    ∀ p ∈ live, (liveSpan s p).Apart ⟨b, HEADER_SIZE⟩ := by
  intro p hp
  obtain ⟨c, hc, rfl⟩ := h.cell hp
  rw [h.inv.represents.liveSpan_eq (mem_of_mem_filter hc)]
  exact hb c hc

theorem Owns.write {mem : Nat → HeapBlock} (h : Owns pool s live cs)
    (hw : WritesInside live s mem) : Owns pool { s with mem := mem } live cs := by
  have hheader (c : Cell) (hc : c ∈ cs) : mem c.addr = s.mem c.addr :=
    hw c.addr (h.apart_of_usable fun d hd =>
      h.inv.wellFormed.contiguous.usable_header_apart (mem_of_mem_filter hd) hc)
  have hrep := h.inv.represents
  refine ⟨⟨⟨hrep.ready, hrep.links.congr fun b hb => ?_, fun c hc => ?_, hrep.blocks, hrep.used⟩,
    h.inv.wellFormed⟩, h.owned⟩
  · obtain ⟨c, hc, rfl⟩ := mem_map.mp hb
    simp [nextOf, prevOf, hheader c hc]
  · rw [show ({ s with mem := mem } : HeapState).mem c.addr = _ from hheader c hc]
    exact hrep.holds c hc

/-! ## Stale headers -/

/-- The header before `p` does not look allocated, and no caller may write to it. -/
structure Stale (s : HeapState) (cs : List Cell) (p : Nat) : Prop where
  magic : (s.mem (p - HEADER_SIZE)).magic ≠ HEAP_MAGIC_USED
  apart : ∀ c ∈ usedCells cs, c.usable.Apart ⟨p - HEADER_SIZE, HEADER_SIZE⟩

theorem absorb_magic {a b nx : Nat} (h : (s.mem a).magic ≠ HEAP_MAGIC_USED) :
    ((absorb b nx s).mem a).magic ≠ HEAP_MAGIC_USED := by
  have hzero : 0 ≠ HEAP_MAGIC_USED := by decide
  simp only [absorb, setStats_mem, setBlock_mem, setBlock?_mem]
  split_ifs <;> simp_all

theorem kfree_magic {a : Nat} (hready : s.ready = true) (hcall : kfree (some p) s = .done s')
    (ha : a ≠ p - HEADER_SIZE → (s.mem a).magic ≠ HEAP_MAGIC_USED) :
    (s'.mem a).magic ≠ HEAP_MAGIC_USED := by
  rw [kfree_done hready hcall]
  refine coalesce_induct (P := fun t => (t.mem a).magic ≠ HEAP_MAGIC_USED) absorb_magic _ ?_
  simp only [markFree, setBlock_mem, setStats_mem]
  split
  · exact fun heq : HEAP_MAGIC_FREE = HEAP_MAGIC_USED => absurd heq (by decide)
  · exact ha (by assumption)

theorem Owns.kfreeStale (h : Owns pool s live cs) (hp : p ∈ live)
    (hstale : ∀ q ∈ stale, Stale s cs q) (hcall : Heap.kfree (some p) s = .done s') :
    ∃ cs', Owns pool s' (live.erase p) cs' ∧ ∀ q ∈ p :: stale, Stale s' cs' q := by
  obtain ⟨cs', h', hsub⟩ := h.kfree hp hcall
  have hready := h.inv.represents.ready
  refine ⟨cs', h', forall_mem_cons.mpr ⟨⟨?_, fun d hd => ?_⟩, fun q hq => ⟨?_, fun d hd => ?_⟩⟩⟩
  · exact kfree_magic hready hcall fun hne => absurd rfl hne
  · obtain ⟨c, hc, rfl⟩ := h.cell hp
    exact h.inv.wellFormed.contiguous.usable_header_apart (mem_of_mem_filter (hsub hd))
      (mem_of_mem_filter hc)
  · exact kfree_magic hready hcall fun _ => (hstale q hq).magic
  · exact (hstale q hq).apart d (hsub hd)

theorem Session.invariant (h : Session pool s live stale) :
    ∃ cs, Owns pool s live cs ∧ ∀ p ∈ stale, Stale s cs p := by
  induction h with
  | init s => exact ⟨_, ⟨heapInit_inv, List.Perm.refl _⟩, forall_mem_nil _⟩
  | kmalloc _ hcall ih =>
    obtain ⟨cs, h, -⟩ := ih
    obtain ⟨cs', h'⟩ := h.kmalloc hcall
    exact ⟨cs', h', forall_mem_nil _⟩
  | kfree _ hp hcall ih =>
    obtain ⟨cs, h, hstale⟩ := ih
    exact h.kfreeStale hp hstale hcall
  | kfreeNull _ hcall ih =>
    cases hcall
    exact ih
  | write _ hw ih =>
    obtain ⟨cs, h, hstale⟩ := ih
    refine ⟨cs, h.write hw, fun p hp => ⟨?_, (hstale p hp).apart⟩⟩
    have hkept := hw _ (h.apart_of_usable (hstale p hp).apart)
    exact (congrArg HeapBlock.magic hkept).trans_ne (hstale p hp).magic

/-- **A pointer that was freed cannot be freed again**, whatever else has been freed since then and
whatever the callers have written into their own allocations. -/
theorem double_free_panics (h : Session pool s live stale) (hp : p ∈ stale) :
    kfree (some p) s = .panic "kfree: double-free or heap corruption" := by
  obtain ⟨cs, h, hstale⟩ := h.invariant
  simp [kfree, h.inv.represents.ready, (hstale p hp).magic]

/-- Three allocations: the first two are freed and merge, and the caller forges a header in the
third. -/
theorem double_free_panics_merged : ∃ s, Session bootPool s [0x2000a0] [0x200060, 0x200020] ∧
    (s.mem 0x200040).magic = 0 ∧ (s.mem 0x2000a0).magic = HEAP_MAGIC_USED ∧
    kfree (some 0x200060) s = .panic "kfree: double-free or heap corruption" := by
  have h₀ : Session bootPool (heapInit bootPool bootHeap) [] [] := .init bootHeap
  have h₁ := h₀.kmalloc (rfl : kmalloc 4 32 _ = .done (some 0x200020, _))
  have h₂ := h₁.kmalloc (rfl : kmalloc 4 32 _ = .done (some 0x200060, _))
  have h₃ := h₂.kmalloc (rfl : kmalloc 4 32 _ = .done (some 0x2000a0, _))
  have h₄ := h₃.kfree (p := 0x200020) (by decide) rfl
  obtain ⟨s, hs, hmagic, hsize⟩ : ∃ s, Session bootPool s [0x2000a0] [0x200060, 0x200020] ∧
      (s.mem 0x200040).magic = 0 ∧ (s.mem 0x200080).size = 32 :=
    ⟨_, h₄.kfree (p := 0x200060) (by decide) rfl, rfl, rfl⟩
  have hforge : WritesInside [0x2000a0] s
      (Function.update s.mem 0x2000a0 ⟨0, HEAP_MAGIC_USED, 0, none, none⟩) := by
    intro b hb
    refine Function.update_of_ne (fun heq => ?_) _ _
    subst heq
    have hspan : liveSpan s 0x2000a0 = ⟨0x2000a0, 32⟩ := congrArg (Span.mk _) hsize
    have hapart := hb 0x2000a0 mem_cons_self
    rw [hspan] at hapart
    exact hapart 0x2000a0 (by simp [Span.mem_iff]) (by simp [Span.mem_iff, HEADER_SIZE])
  exact ⟨_, hs.write hforge, hmagic, rfl, double_free_panics (hs.write hforge) mem_cons_self⟩

end

end AiosKernel.Heap
