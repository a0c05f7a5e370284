/-
# `AiosKernel.Lib.Stride` — two clients that share a server by strides

Each client has a position; the one that is behind runs, and moves on by its
stride.  A client that has run stands in line behind one at the same position.

The client with the smaller stride runs more often, so it comes to lead by more
than one run: `race_within_one_iff` says after how many rounds.
-/
import Mathlib.Algebra.Ring.Nat
import Mathlib.Tactic.Common

namespace Stride

variable {α : Type*} [DecidableEq α] {x y : α}

/-- At no point of the list has `y` come more than `c` times more often than `x`. -/
def Within (x y : α) (c : Nat) (runs : List α) : Prop :=
  ∀ k, (runs.take k).count y ≤ (runs.take k).count x + c

theorem within_nil (c : Nat) : Within x y c [] := by
  simp [Within]

variable {runs : List α} {c : Nat}

theorem within_cons_iff {z : α} : Within x y c (z :: runs) ↔
    ∀ k, ((runs.take k).count y + if z = y then 1 else 0) ≤
      (runs.take k).count x + (if z = x then 1 else 0) + c := by
  constructor
  · intro h k
    simpa [List.count_cons] using h (k + 1)
  · intro h k
    cases k with
    | zero => simp
    | succ k => simpa [List.count_cons] using h k

theorem within_cons_left (hxy : x ≠ y) : Within x y c (x :: runs) ↔ Within x y (c + 1) runs := by
  rw [within_cons_iff, if_neg hxy, if_pos rfl]
  refine forall_congr' fun k => ?_
  omega

theorem within_cons_right (hxy : x ≠ y) : Within x y (c + 1) (y :: runs) ↔ Within x y c runs := by
  rw [within_cons_iff, if_neg hxy.symm, if_pos rfl]
  refine forall_congr' fun k => ?_
  omega

theorem not_within_zero (hxy : x ≠ y) : ¬ Within x y 0 (y :: runs) := by
  intro h
  have hone := h 1
  simp [hxy.symm] at hone

section

variable (x y) (A B : Nat)

/-- Who runs in each of `n` rounds: `x` is at `u` and has the stride `A`, `y` is at `v` and has the
stride `B`, and `x` is first in line if `first` says so. -/
def race : Nat → Nat → Nat → Bool → List α
  | 0, _, _, _ => []
  | n + 1, u, v, true => x :: race n (u + A) v (decide (u + A < v))
  | n + 1, u, v, false => y :: race n u (v + B) (!decide (v + B < u))

end

section

variable {A B n u v : Nat} {first : Bool}

/-- The lead stays within `c` if `x` is not ahead wherever the lead is `c`; there, `y` has run
`f + c` times, and `f` is how often `x` has. -/
theorem race_within_iff (hxy : x ≠ y) (hfirst : first = true → u ≤ v)
    (hsecond : first = false → v ≤ u) : Within x y c (race x y A B n u v first) ↔
      (c = 0 → first = false → n = 0) ∧ ∀ f, 2 * f + c + 1 ≤ n → u + f * A ≤ v + (f + c) * B := by
  induction n generalizing u v c first with
  | zero => simp [race, within_nil]
  | succ n ih =>
    cases first with
    | true =>
      rw [race, within_cons_left hxy, ih (by simpa using Nat.le_of_lt) (by simp)]
      have hstep : ∀ f, u + A + f * A ≤ v + (f + (c + 1)) * B ↔
          u + (f + 1) * A ≤ v + (f + 1 + c) * B := by
        intro f
        rw [Nat.succ_mul, Nat.add_right_comm f 1 c, Nat.add_assoc f c 1]
        omega
      simp only [hstep]
      constructor
      · rintro ⟨-, hrest⟩
        refine ⟨by simp, fun f hf => ?_⟩
        cases f with
        | zero =>
          have := hfirst rfl
          omega
        | succ f => exact hrest f (by omega)
      · rintro ⟨-, hrest⟩
        exact ⟨by simp, fun f hf => hrest (f + 1) (by omega)⟩
    | false =>
      cases c with
      | zero => simp [race, not_within_zero hxy]
      | succ c =>
        rw [race, within_cons_right hxy, ih (by simp) (by simpa using Nat.le_of_lt)]
        have hstep : ∀ f, v + B + (f + c) * B = v + (f + (c + 1)) * B := by
          intro f
          rw [← Nat.add_assoc f c 1, Nat.succ_mul (f + c) B]
          omega
        simp only [hstep]
        constructor
        · rintro ⟨-, hrest⟩
          exact ⟨by simp, fun f hf => hrest f (by omega)⟩
        · rintro ⟨-, hrest⟩
          refine ⟨?_, fun f hf => hrest f (by omega)⟩
          -- `y` is first again only where `x` is ahead of it
          rintro rfl hahead
          by_contra hn
          have := hrest 0 (by omega)
          simp at hahead this
          omega

/-- With strides `B ≤ A`, `y` leads by more than one run as soon as the positions allow it. -/
theorem race_within_one_iff (hxy : x ≠ y) (hAB : B ≤ A) (hfirst : first = true → u ≤ v)
    (hsecond : first = false → v ≤ u) : Within x y 1 (race x y A B n u v first) ↔
      n < 2 ∨ u + (n / 2 - 1) * A ≤ v + n / 2 * B := by
  rw [race_within_iff hxy hfirst hsecond]
  constructor
  · rintro ⟨-, hall⟩
    by_cases hn : n < 2
    · exact .inl hn
    · have := hall (n / 2 - 1) (by omega)
      rw [show n / 2 - 1 + 1 = n / 2 by omega] at this
      exact .inr this
  · intro h
    refine ⟨by simp, fun f hf => ?_⟩
    obtain ⟨e, he⟩ := Nat.exists_eq_add_of_le (show f + 1 ≤ n / 2 by omega)
    have hlast := h.resolve_left (by omega)
    have hmono := Nat.mul_le_mul_left e hAB
    rw [he, show f + 1 + e - 1 = f + e by omega, Nat.add_mul f e A, Nat.add_mul (f + 1) e B] at hlast
    omega

end

end Stride
