/-
# `AiosKernel.Syscall.Shapes` — the memory `SYS_TENSOR_CREATE` gets for a shape

The shape comes from user memory and is not checked.  `tensor_total_size`
multiplies the dimensions in a wrapping loop, and follows `ndim` past the end of
the array.  The exact size is `exactBytes`; the tensor holds it just when the
shape has at most eight dimensions and needs no more than 4 GiB less one line.
Beyond that no pool could hold it, and what is allocated is too small.
-/
import AiosKernel.Syscall.Create
import AiosKernel.TensorMm.Fit

namespace AiosKernel.Syscall

open TensorMm Word List
open AiosKernel.UserAccess (Window copyFromUser copyToUser copyToUser_eq setWindow
  syscallOutputBufferStatus)

def MAX_TENSOR_DIMS : Nat := 8

/-- The bytes a tensor of this shape has: the product of its dimensions times the size of an
element, of which there are two in a byte for `INT4`. -/
def exactBytes (shape : TensorShape) : Nat :=
  let elements := (shape.dims.take shape.ndim).prod
  if shape.dtype = DTYPE_INT4 then (elements + 1) / 2
  else elements * tensorDtypeSize shape.dtype

section

variable {shape : TensorShape} {beyond : Nat → Nat}

theorem foldl_u64_mul (f : Nat → Nat) (l : List Nat) :
    ∀ n, n < 2 ^ 64 → l.foldl (fun total i => u64 (total * f i)) n = u64 (n * (l.map f).prod) := by
  induction l with
  | nil =>
    intro n hn
    rw [map_nil, prod_nil, Nat.mul_one, u64_eq hn]
    rfl
  | cons x l ih =>
    intro n hn
    have hlt : u64 (n * f x) < 2 ^ 64 := Nat.mod_lt _ (by decide)
    rw [foldl_cons, ih _ hlt, map_cons, prod_cons, ← Nat.mul_assoc]
    simp [u64]

section

variable (hdims : shape.dims.length = MAX_TENSOR_DIMS) (hn : shape.ndim ≤ MAX_TENSOR_DIMS)
include hdims hn

theorem map_dimAt :
    (List.range shape.ndim).map (shape.dimAt beyond) = shape.dims.take shape.ndim := by
  refine ext_getElem (by simp [hdims, hn]) fun i hi _ => ?_
  have hlt : i < shape.dims.length := by
    rw [length_map, length_range] at hi
    omega
  simp [TensorShape.dimAt, getElem?_append_left hlt, getElem?_eq_getElem hlt]

theorem tensorTotalSize_eq (h0 : shape.ndim ≠ 0) (hfits : exactBytes shape < 2 ^ 32) :
    tensorTotalSize shape beyond = exactBytes shape := by
  simp only [tensorTotalSize, if_neg h0, foldl_u64_mul _ _ 1 (by decide), map_dimAt hdims hn,
    Nat.one_mul, exactBytes] at hfits ⊢
  split
  · rename_i hdtype
    rw [if_pos hdtype] at hfits
    rw [u64_eq (n := (shape.dims.take shape.ndim).prod) (by omega), u64_eq (by omega)]
  · rename_i hdtype
    rw [if_neg hdtype] at hfits
    simp only [u64, Nat.mod_mul_mod]
    exact Nat.mod_eq_of_lt (by omega)

end

theorem alignUp64_line {x : Nat} (hx : x ≤ 2 ^ 32 - 64) :
    x ≤ alignUp64 x TENSOR_ALIGN ∧ alignUp64 x TENSOR_ALIGN ≤ 2 ^ 32 - 64 := by
  have hmask : alignUp64 x TENSOR_ALIGN = (x + 63) % 2 ^ 64 % 2 ^ 64 / 2 ^ 6 * 2 ^ 6 :=
    @land_mask (u64 (x + 63)) 6 64 (by decide)
  omega

/-- The request that `tensor_alloc` makes of a shape. -/
def shapeRequest (shape : TensorShape) (beyond : Nat → Nat) (region : Nat) : AllocRequest :=
  let lifetime := defaultLifetimeForRegion (MemRegion.ofCode? region)
  { size := alignUp64 (tensorTotalSize shape beyond) TENSOR_ALIGN, alignment := TENSOR_ALIGN,
    region, lifetime, realtimeCritical := lifetime == .realtime, stochastic := false }

theorem shapeRequest_inRange (region : Nat) : (shapeRequest shape beyond region).InRange := by
  refine ⟨?_, show TENSOR_ALIGN < 2 ^ 32 by decide⟩
  have hmask : (shapeRequest shape beyond region).size =
      u64 (tensorTotalSize shape beyond + 63) % 2 ^ 64 / 2 ^ 6 * 2 ^ 6 :=
    @land_mask (u64 (tensorTotalSize shape beyond + 63)) 6 64 (by decide)
  omega

theorem tensorAlloc_eq (region : Nat) (s : MmState) (hsize : tensorTotalSize shape beyond ≠ 0) :
    tensorAlloc beyond (some shape) region true s =
      tensorAllocAlignedProfiled true (shapeRequest shape beyond region) s := by
  simp only [tensorAlloc, tensorAllocProfiled, hsize, Bool.not_true, Bool.false_eq_true, if_false]
  rfl

theorem tensorAlloc_returned {region : Nat} {s s' : MmState} {t : TensorAlloc}
    (hcall : tensorAlloc beyond (some shape) region true s = .done ((.ok, some t), s')) :
    tensorTotalSize shape beyond ≠ 0 ∧
      tensorAllocAlignedProfiled true (shapeRequest shape beyond region) s =
        .done ((.ok, some t), s') := by
  have hsize : tensorTotalSize shape beyond ≠ 0 := by
    intro h0
    simp only [tensorAlloc, tensorAllocProfiled, h0, Bool.not_true, Bool.false_eq_true, if_false,
      if_true] at hcall
    cases hcall
  exact ⟨hsize, (tensorAlloc_eq region s hsize).symm.trans hcall⟩

/-- In every state of a run and for every shape, a tensor that `tensor_alloc` returns has no more
than eight dimensions and is as large as its shape just when the shape has no more than eight
dimensions and needs no more than 4 GiB less one line. -/
theorem tensor_holds_shape_iff {l : Layout} {s s' : MmState} {t : TensorAlloc} {region : Nat}
    (h : TensorMm.Reach l s) (hdims : shape.dims.length = MAX_TENSOR_DIMS)
    (hcall : tensorAlloc beyond (some shape) region true s = .done ((.ok, some t), s')) :
    (shape.ndim ≤ MAX_TENSOR_DIMS ∧ exactBytes shape ≤ t.size) ↔
      shape.ndim ≤ MAX_TENSOR_DIMS ∧ exactBytes shape ≤ 2 ^ 32 - 64 := by
  obtain ⟨hsize, hreq⟩ := tensorAlloc_returned hcall
  have hq := @shapeRequest_inRange shape beyond region
  refine and_congr_right fun hn => ⟨fun hle => ?_, fun hle => ?_⟩
  · have hlimit := h.alloc_size_le hq hreq
    simp only [ADDR_LIMIT] at hlimit
    omega
  · have h0 : shape.ndim ≠ 0 := fun h0 => hsize (if_pos h0)
    have htotal := @tensorTotalSize_eq shape beyond hdims hn h0 (by omega)
    obtain ⟨hge, hmax⟩ := alignUp64_line hle
    obtain ⟨F, hinv⟩ := h.invariant.inv
    have hlarge := (alloc_satisfies hinv.represents.closed hq hreq).2
    simp only [shapeRequest, htotal, Nat.max_self] at hlarge
    exact hge.trans (hlarge (by simp only [TENSOR_ALIGN] at hmax ⊢; omega))

end

/-! ## Shapes right after the boot -/

def shapeMemory (shape : TensorShape) : UserMemory where
  shapeAt _ := shape
  modelLoadAt _ := ⟨0, 0, 0, 0⟩
  ringSetupAt _ := ⟨⟨0, 0, 0, 0⟩, 0⟩
  pipeCreateAt _ := ⟨0, [], 0⟩
  charAt _ := Char.ofNat 0

/-- `SYS_TENSOR_CREATE` in the tensor region by a program in the user hole, whose shape is at the
start of its window. -/
def createShape (shape : TensorShape) (s : MmState) : Outcome (AiosStatus × MmState) :=
  sysTensorCreate (setWindow AIOS_BOOTSTRAP_USER_BASE AIOS_BOOTSTRAP_USER_SIZE) (shapeMemory shape)
    (fun _ => 0) AIOS_BOOTSTRAP_USER_BASE 1 (AIOS_BOOTSTRAP_USER_BASE + 256) s

theorem createShape_line {l : Layout} {s : MmState} {shape : TensorShape}
    (h : TensorMm.Reach l s) (hlive : live s = [])
    (hpass : (shapeRequest shape (fun _ => 0) 1).Passes .tensor (2 ^ 6))
    (hline : alignUp32 (shapeRequest shape (fun _ => 0) 1).size (2 ^ 6) = 64)
    (hsize : tensorTotalSize shape (fun _ => 0) ≠ 0) :
    ∃ s' t, tensorAlloc (fun _ => 0) (some shape) 1 true s = .done ((.ok, some t), s') ∧
      createShape shape s = .done (.ok, s') := by
  obtain ⟨s', t, hreq, -⟩ := h.serve_line hlive
    (show (MB 256, .tensor) ∈ memoryPools by decide) hpass hline
  have hcall := (tensorAlloc_eq 1 s hsize).trans hreq
  have hin : copyFromUser (setWindow AIOS_BOOTSTRAP_USER_BASE AIOS_BOOTSTRAP_USER_SIZE) true
      AIOS_BOOTSTRAP_USER_BASE SIZEOF_TENSOR_SHAPE = .ok := by decide
  have hout : syscallOutputBufferStatus
      (setWindow AIOS_BOOTSTRAP_USER_BASE AIOS_BOOTSTRAP_USER_SIZE)
      (AIOS_BOOTSTRAP_USER_BASE + 256) SIZEOF_TENSOR_ALLOC = .ok := by decide
  have hcopy := (copyToUser_eq (by decide)).trans hout
  refine ⟨s', t, hcall, ?_⟩
  simp [createShape, sysTensorCreate, shapeMemory, hin, hout, hcall, hcopy, Outcome.done_bind]

/-- A four by four matrix of `FP32`. -/
def matrixShape : TensorShape := ⟨2, [4, 4, 1, 1, 1, 1, 1, 1], List.replicate 8 0, DTYPE_FP32⟩

theorem tensor_holds_matrix : ∃ s s' t, TensorMm.Reach imageLayout s ∧
    tensorAlloc (fun _ => 0) (some matrixShape) 1 true s = .done ((.ok, some t), s') ∧
    matrixShape.ndim ≤ MAX_TENSOR_DIMS ∧ exactBytes matrixShape ≤ t.size := by
  obtain ⟨s, hs, hlive⟩ := exists_reach
  obtain ⟨s', t, hcall, -⟩ := @createShape_line _ s matrixShape hs hlive
    ⟨by decide, rfl, by decide, by decide, by decide, by decide⟩ (by decide) (by decide)
  exact ⟨s, s', t, hs, hcall, (tensor_holds_shape_iff hs rfl hcall).mpr (by decide)⟩

/-- Three times a third of the address space: the product wraps to 62. -/
def wrappedShape : TensorShape :=
  ⟨2, [3, 6148914691236517226, 0, 0, 0, 0, 0, 0], List.replicate 8 0, DTYPE_INT8⟩

/-- Nine dimensions: the last one is read from the first stride. -/
def longShape : TensorShape :=
  ⟨9, List.replicate 8 1, [64, 0, 0, 0, 0, 0, 0, 0], DTYPE_INT8⟩

/-- `SYS_TENSOR_CREATE` succeeds for both, for the first with a tensor that is too small. -/
theorem tensor_create_accepts_bad_shapes : ∃ s, TensorMm.Reach imageLayout s ∧
    (∃ s' t, createShape wrappedShape s = .done (.ok, s') ∧
      tensorAlloc (fun _ => 0) (some wrappedShape) 1 true s = .done ((.ok, some t), s') ∧
      t.size < exactBytes wrappedShape) ∧
    ∃ s' t, createShape longShape s = .done (.ok, s') ∧
      tensorAlloc (fun _ => 0) (some longShape) 1 true s = .done ((.ok, some t), s') ∧
      MAX_TENSOR_DIMS < longShape.ndim := by
  obtain ⟨s, hs, hlive⟩ := exists_reach
  obtain ⟨s₁, t₁, hcall₁, hcreate₁⟩ := @createShape_line _ s wrappedShape hs hlive
    ⟨by decide, rfl, by decide, by decide, by decide, by decide⟩ (by decide) (by decide)
  obtain ⟨s₂, t₂, hcall₂, hcreate₂⟩ := @createShape_line _ s longShape hs hlive
    ⟨by decide, rfl, by decide, by decide, by decide, by decide⟩ (by decide) (by decide)
  have hle := hs.alloc_size_le (shapeRequest_inRange 1) (tensorAlloc_returned hcall₁).2
  exact ⟨s, hs, ⟨s₁, t₁, hcreate₁, hcall₁, hle.trans_lt (by decide)⟩,
    s₂, t₂, hcreate₂, hcall₂, by decide⟩

end AiosKernel.Syscall
