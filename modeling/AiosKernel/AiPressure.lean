/-
# `AiosKernel.AiPressure` — the scaled ratio of the pressure scores

Model of `ratio_q10` in `kernel/runtime/ai_pressure.c`, which divides without a
product of 74 bits: ten turns of a loop each append one bit of the quotient and double
the remainder.  What carries the proof is the equation of a long division (`Divides`),
whose remainder stays below the denominator, so that every subtraction and every shift
keeps to its width.
-/
import AiosKernel.Lib.Word
import Mathlib.Logic.Function.Iterate
import Mathlib.Order.Nat

namespace AiosKernel.AiPressure

open Word Function

def AI_PRESSURE_SCORE_SCALE : Nat := 1024

/-- One turn of the loop, on `result` and `remainder`. -/
def divideBit (denominator : Nat) (x : Nat × Nat) : Nat × Nat :=
  let result := u32 (x.1 <<< 1)
  if sub64 denominator x.2 ≤ x.2 then (result ||| 1, sub64 x.2 (sub64 denominator x.2))
  else (result, u64 (x.2 + x.2))

def ratioQ10 (numerator denominator : Nat) : Nat :=
  if denominator = 0 ∨ numerator = 0 then 0
  else if denominator ≤ numerator then AI_PRESSURE_SCORE_SCALE
  else ((divideBit denominator)^[10] (0, numerator)).1

/-- No operation of the next turn leaves its range. -/
def InRange (d : Nat) (x : Nat × Nat) : Prop :=
  x.2 ≤ d ∧ (x.2 < d - x.2 → x.2 + x.2 < 2 ^ 64) ∧ x.1 <<< 1 < 2 ^ 32

/-- After `k` turns the first `k` bits of the quotient are known. -/
structure Divides (n d k : Nat) (x : Nat × Nat) : Prop where
  eq : 2 ^ k * n = x.1 * d + x.2
  remainder_lt : x.2 < d
  result_lt : x.1 < 2 ^ k

section

variable {n d k : Nat} {x : Nat × Nat} (hd : d < 2 ^ 64) (hk : k ≤ 10)
include hd hk

theorem Divides.inRange (h : Divides n d k x) : InRange d x := by
  have hr := h.remainder_lt
  have hx := h.result_lt
  have hpow : 2 ^ k ≤ 2 ^ 10 := Nat.pow_le_pow_right (by decide) hk
  refine ⟨hr.le, fun _ => by omega, ?_⟩
  rw [Nat.shiftLeft_eq]
  omega

theorem Divides.bit (h : Divides n d k x) : Divides n d (k + 1) (divideBit d x) := by
  obtain ⟨hle, -, hshift⟩ := h.inRange hd hk
  obtain ⟨heq, hr, hx⟩ := h
  have htwice : 2 ^ (k + 1) * n = x.1 * 2 * d + 2 * x.2 := by
    rw [pow_succ, Nat.mul_right_comm, heq, Nat.mul_right_comm]
    omega
  have hlt : x.1 * 2 + 1 < 2 ^ (k + 1) := by
    rw [pow_succ]
    omega
  simp only [divideBit, sub64_eq hle hd, u32_eq hshift]
  split
  · rename_i hge
    rw [← Nat.shiftLeft_add_eq_or_of_lt (by decide : 1 < 2 ^ 1), sub64_eq hge (hr.trans hd),
      Nat.shiftLeft_eq, pow_one]
    refine ⟨?_, ?_, hlt⟩
    · rw [htwice, Nat.add_mul]
      omega
    · dsimp only
      omega
  · rename_i hge
    rw [u64_eq (by omega), Nat.shiftLeft_eq]
    refine ⟨by rw [htwice, Nat.two_mul], ?_, Nat.lt_of_succ_lt hlt⟩
    dsimp only
    omega

theorem divides_iterate (hn : n < d) : Divides n d k ((divideBit d)^[k] (0, n)) := by
  induction k with
  | zero => exact ⟨by simp, hn, Nat.one_pos⟩
  | succ k ih =>
    rw [iterate_succ_apply']
    exact (ih (Nat.le_of_succ_le hk)).bit hd (Nat.le_of_succ_le hk)

end

/-- **`ratio_q10` is the exact quotient of the scaled numerator, up to the scale**, and no
operation of its ten turns leaves its range. -/
theorem ratio_q10_exact (n d : UInt64) :
    ratioQ10 n.toNat d.toNat = (if d = 0 then 0 else min 1024 (1024 * n.toNat / d.toNat)) ∧
      (n < d → ∀ bit < 10, InRange d.toNat ((divideBit d.toNat)^[bit] (0, n.toNat))) := by
  have hd := d.toNat_lt
  refine ⟨?_, fun hn bit hbit => (divides_iterate hd hbit.le hn).inRange hd hbit.le⟩
  have hzero : d = 0 ↔ d.toNat = 0 := UInt64.toNat_inj.symm
  rw [ratioQ10, if_congr hzero rfl rfl]
  by_cases hd0 : d.toNat = 0
  · rw [if_pos (.inl hd0), if_pos hd0]
  have hpos := Nat.pos_of_ne_zero hd0
  rw [if_neg hd0]
  split
  · rename_i hnone
    rw [hnone.resolve_left hd0, Nat.mul_zero, Nat.zero_div, Nat.min_zero]
  split
  · rename_i hge
    exact (Nat.min_eq_left ((Nat.le_div_iff_mul_le hpos).mpr (Nat.mul_le_mul_left 1024 hge))).symm
  · rename_i hlt
    have h := divides_iterate hd (Nat.le_refl 10) (Nat.lt_of_not_le hlt)
    rw [show 1024 * n.toNat = _ from h.eq, Nat.add_comm, Nat.add_mul_div_right _ _ hpos,
      Nat.div_eq_of_lt h.remainder_lt, Nat.zero_add]
    exact (Nat.min_eq_right h.result_lt.le).symm

end AiosKernel.AiPressure
