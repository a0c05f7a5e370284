/-
# `AiosKernel.Lib.Flag` — one bit of a machine word as a flag

Testing, setting and clearing bit `i` of a `w`-bit word the way C code does it,
with the mask `1 << i`, and what the three say about each other.  Then masks of
several bits: what a test with a mask says bit by bit, and which tests survive a
change of other bits.
-/
import Mathlib.Tactic.Common

namespace Flag

variable {w : Nat}

/-- `(x & (1 << i)) != 0`. -/
def test (x : BitVec w) (i : Nat) : Bool := x &&& BitVec.twoPow w i != 0#w

/-- `x | (1 << i)`. -/
def set (x : BitVec w) (i : Nat) : BitVec w := x ||| BitVec.twoPow w i

/-- `x & ~(1 << i)`. -/
def clear (x : BitVec w) (i : Nat) : BitVec w := x &&& ~~~(BitVec.twoPow w i)

theorem test_eq (x : BitVec w) (i : Nat) : test x i = x.getLsbD i := by
  unfold test
  rw [BitVec.and_twoPow]
  cases hx : x.getLsbD i with
  | false => simp
  | true =>
    have hlt : i < w := BitVec.lt_of_getLsbD hx
    have hne : BitVec.twoPow w i ≠ 0#w := by
      intro hzero
      have hbit : (BitVec.twoPow w i).getLsbD i = (0#w).getLsbD i := by rw [hzero]
      simp [hlt] at hbit
    simp [hne]

@[simp] theorem test_clear (x : BitVec w) (i : Nat) : test (clear x i) i = false := by
  rw [test_eq]
  by_cases hi : i < w <;> simp [clear, hi]

theorem test_set (x : BitVec w) {i : Nat} (hi : i < w) : test (set x i) i = true := by
  rw [test_eq]
  simp [set, hi]

/-- Two words whose difference has bit `i` clear agree on the flag. -/
theorem test_xor (x y : BitVec w) (i : Nat) : test (x ^^^ y) i = (test x i ^^ test y i) := by
  simp [test_eq]

/-! ## Masks -/

/-- Every bit asked for is allowed. -/
theorem and_eq_self_iff {req allowed : BitVec w} :
    req &&& allowed = req ↔ ∀ i, req.getLsbD i = true → allowed.getLsbD i = true := by
  constructor
  · intro h i hi
    have hbit := congrArg (BitVec.getLsbD · i) h
    simpa [hi] using hbit
  · intro h
    ext i hi
    have hbit := h i
    cases hreq : req[i] with
    | false => simp [hreq]
    | true => simp [hreq, hbit hreq]

/-- Some bit is asked for that the mask has. -/
theorem and_ne_zero_iff {req mask : BitVec w} :
    req &&& mask ≠ 0 ↔ ∃ i, req.getLsbD i = true ∧ mask.getLsbD i = true := by
  constructor
  · intro h
    by_contra hno
    refine h (BitVec.eq_of_getLsbD_eq ?_)
    intro i hi
    simpa using fun hreq => Bool.eq_false_iff.mpr fun hmask => hno ⟨i, hreq, hmask⟩
  · rintro ⟨i, hreq, hmask⟩ h
    have hbit := congrArg (BitVec.getLsbD · i) h
    simp [hreq, hmask] at hbit

variable {x m b : BitVec w}

/-- What is left of a word meets a mask only if the word did. -/
theorem ne_zero_of_and (h : x &&& m &&& b ≠ 0) : x &&& b ≠ 0 := by
  obtain ⟨i, hxm, hb⟩ := and_ne_zero_iff.mp h
  refine and_ne_zero_iff.mpr ⟨i, ?_, hb⟩
  exact (Bool.and_eq_true_iff.mp (BitVec.getLsbD_and.symm.trans hxm)).1

/-- Taking away bits other than `b` does not show under `b`. -/
theorem and_and_of_subset (h : m &&& b = b) : x &&& m &&& b = x &&& b := by
  rw [BitVec.and_assoc, h]

/-- Adding bits other than `b` does not show under `b`. -/
theorem or_and_of_disjoint (h : m &&& b = 0) : (x ||| m) &&& b = x &&& b := by
  rw [BitVec.and_or_distrib_right, h]
  exact BitVec.or_zero

/-- Bits that are taken away are gone. -/
theorem and_not_and : x &&& ~~~b &&& b = 0 := by
  rw [BitVec.and_assoc, BitVec.and_comm (~~~b) b, BitVec.and_not_self]
  exact BitVec.and_zero

end Flag
