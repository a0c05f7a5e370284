/-
# `AiosKernel.Lib.Census` — counting the indices below a bound

`census n f p` is the number of indices below `n` whose value under `f` passes
`p`.  A table that grows at its end and is rewritten one entry at a time changes
its census by one entry at a time.
-/
import Mathlib.Data.List.Range

namespace Census

open List Function

/-- The number of indices below `n` whose value passes `p`. -/
def census {α : Type*} (n : Nat) (f : Nat → α) (p : α → Bool) : Nat :=
  (List.range n).countP fun i => p (f i)

/-- One if the value passes, else zero. -/
def weigh {α : Type*} (p : α → Bool) (a : α) : Nat := if p a then 1 else 0

section

variable {α : Type*} {n i : Nat} {f g : Nat → α} {p : α → Bool} {a : α}

theorem census_succ : census (n + 1) f p = census n f p + weigh p (f n) := by
  simp only [census, weigh, range_succ, countP_append, countP_singleton]

theorem census_congr (h : ∀ i < n, f i = g i) : census n f p = census n g p := by
  refine countP_congr ?_
  intro i hi
  rw [h i (mem_range.mp hi)]

theorem census_all : census n f p = n ↔ ∀ i < n, p (f i) = true := by
  conv_lhs => rhs; rw [← @length_range n]
  rw [census, countP_eq_length]
  simp only [mem_range]

theorem census_none (h : ∀ i < n, p (f i) = false) : census n f p = 0 := by
  refine countP_eq_zero.mpr ?_
  intro i hi
  simp [h i (mem_range.mp hi)]

theorem census_push : census (n + 1) (update f n a) p = census n f p + weigh p a := by
  rw [census_succ, update_self]
  refine congrArg (· + weigh p a) (census_congr ?_)
  intro i hi
  exact update_of_ne hi.ne _ _

theorem census_update (hi : i < n) :
    census n (update f i a) p + weigh p (f i) = census n f p + weigh p a := by
  induction n with
  | zero => exact absurd hi (Nat.not_lt_zero i)
  | succ n ih =>
    rcases Nat.lt_succ_iff_lt_or_eq.mp hi with hlt | rfl
    · rw [census_succ, census_succ, update_of_ne hlt.ne']
      omega
    · rw [census_push, census_succ]
      omega

end

end Census
