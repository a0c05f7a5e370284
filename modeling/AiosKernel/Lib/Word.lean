/-
# `AiosKernel.Lib.Word` — unsigned machine arithmetic on `Nat`

Unsigned C integers are natural numbers below `2 ^ 32` or `2 ^ 64`; an operation
that can leave the range is followed by `u32` or `u64`.  Masks are `Nat.land`
with the value the complement has at its own width, which is where a 32-bit
mask applied to a 64-bit value loses the upper half (`land_mask`).
-/
import Mathlib.Algebra.Ring.Int.Defs
import Mathlib.Algebra.Ring.Nat
import Mathlib.Tactic.Common

namespace Word

/-- Truncation to 16 bits. -/
def u16 (n : Nat) : Nat := n % 2 ^ 16

/-- Truncation to 32 bits. -/
def u32 (n : Nat) : Nat := n % 2 ^ 32

/-- Truncation to 64 bits. -/
def u64 (n : Nat) : Nat := n % 2 ^ 64

/-- Conversion to a signed 32-bit integer. -/
def i32 (n : Int) : Int := Int.bmod n (2 ^ 32)

/-- Subtraction of 32-bit values. -/
def sub32 (a b : Nat) : Nat := (a + (2 ^ 32 - b)) % 2 ^ 32

/-- Subtraction of 64-bit values. -/
def sub64 (a b : Nat) : Nat := (a + (2 ^ 64 - b)) % 2 ^ 64

theorem u32_eq {n : Nat} (h : n < 2 ^ 32) : u32 n = n := Nat.mod_eq_of_lt h

theorem u64_eq {n : Nat} (h : n < 2 ^ 64) : u64 n = n := Nat.mod_eq_of_lt h

theorem u32_succ (n : Nat) : u32 (u32 n + 1) = u32 (n + 1) := by
  simp only [u32]
  omega

theorem foldl_u32_add {α : Type} (f : α → Nat) (xs : List α) :
    ∀ n, n + (xs.map f).sum < 2 ^ 32 →
      xs.foldl (fun n x => u32 (n + f x)) n = n + (xs.map f).sum := by
  induction xs with
  | nil => exact fun n _ => rfl
  | cons x xs ih =>
    intro n hlt
    rw [List.map_cons, List.sum_cons] at hlt ⊢
    rw [List.foldl_cons, u32_eq (by omega), ih _ (by omega)]
    omega

/-- A fold that counts at most one at each element counts no more than there are elements. -/
theorem foldl_le_length {α β : Type} {f : β → α → β} {m : β → Nat}
    (h : ∀ b x, m (f b x) ≤ m b + 1) (xs : List α) (b : β) : m (xs.foldl f b) ≤ m b + xs.length := by
  induction xs generalizing b with
  | nil => exact Nat.le_refl _
  | cons x xs ih =>
    have hstep := h b x
    have hrest := ih (f b x)
    rw [List.foldl_cons, List.length_cons]
    omega

theorem sub32_eq {a b : Nat} (hle : b ≤ a) (ha : a < 2 ^ 32) : sub32 a b = a - b := by
  unfold sub32
  omega

theorem sub64_eq {a b : Nat} (hle : b ≤ a) (ha : a < 2 ^ 64) : sub64 a b = a - b := by
  unfold sub64
  omega

/-- Masking with the complement of `2 ^ k - 1` at width `w` keeps the bits from `k` up to
`w`: it rounds down to a multiple of `2 ^ k` and drops everything from bit `w` on. -/
theorem land_mask (x : Nat) {k w : Nat} (hk : k ≤ w) :
    x &&& (2 ^ w - 2 ^ k) = x % 2 ^ w / 2 ^ k * 2 ^ k := by
  have hmask : 2 ^ w - 2 ^ k = (2 ^ (w - k) - 1) * 2 ^ k := by
    rw [Nat.sub_mul, Nat.one_mul, ← Nat.pow_add, Nat.sub_add_cancel hk]
  rw [hmask]
  refine Nat.eq_of_testBit_eq fun i => ?_
  rw [Nat.testBit_and, Nat.testBit_mul_two_pow, Nat.testBit_mul_two_pow,
    Nat.testBit_two_pow_sub_one, Nat.testBit_div_two_pow, Nat.testBit_mod_two_pow]
  by_cases hki : k ≤ i
  · have h₁ : i - k + k = i := by omega
    have h₂ : (i - k < w - k) = (i < w) := by
      apply propext
      omega
    simp [hki, h₁, h₂, Bool.and_comm]
  · simp [hki]

end Word
