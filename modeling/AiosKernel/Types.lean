/-
# `AiosKernel.Types` — status codes and the ways a kernel call can end

`aios_status_t` of `kernel/include/kernel/types.h`, and the outcome of a call
that may also panic or run forever.  Loops of the source get fuel; that it suffices
is proved where a call is said to return.
-/
import Mathlib.Tactic.Common

namespace AiosKernel

inductive AiosStatus where
  | ok
  | errNomem
  | errInval
  | errBusy
  | errNodev
  | errTimeout
  | errPerm
  | errIo
  | errNosys
  | errOverflow
  | errAccel
  | errTensor
  | errModel
  deriving DecidableEq, Repr

/-- How a call ends: with a result, in `kernel_panic`, or not within the fuel its loops
were given. -/
inductive Outcome (α : Type) where
  | done (a : α)
  | panic (msg : String)
  | diverge
  deriving DecidableEq, Repr

namespace Outcome

/-- Sequencing: only a call that returned is followed by the next one. -/
def bind {α β : Type} : Outcome α → (α → Outcome β) → Outcome β
  | .done a, f => f a
  | .panic m, _ => .panic m
  | .diverge, _ => .diverge

instance : Monad Outcome where
  pure := .done
  bind := Outcome.bind

variable {α β : Type} {x : Outcome α} {f : α → Outcome β}

@[simp] theorem done_bind (a : α) (f : α → Outcome β) : (Outcome.done a >>= f) = f a := rfl

@[simp] theorem panic_bind (m : String) (f : α → Outcome β) :
    (Outcome.panic m >>= f) = .panic m := rfl

@[simp] theorem diverge_bind (f : α → Outcome β) : (Outcome.diverge >>= f) = .diverge := rfl

/-- C's `&&`: the second operand runs only if the first is true. -/
def and (c : Bool) (x : Outcome Bool) : Outcome Bool := if c then x else .done false

theorem and_eq_true {c : Bool} {x : Outcome Bool} :
    Outcome.and c x = .done true ↔ c = true ∧ x = .done true := by
  cases c <;> simp [Outcome.and]

/-- A sequence returned only if both parts did. -/
theorem bind_eq_done {b : β} : (x >>= f) = .done b ↔ ∃ a, x = .done a ∧ f a = .done b := by
  cases x <;> simp

/-- A sequence panicked where one of its parts did. -/
theorem bind_eq_panic {m : String} :
    (x >>= f) = .panic m ↔ x = .panic m ∨ ∃ a, x = .done a ∧ f a = .panic m := by
  cases x <;> simp

/-- A result and a state that are returned twice are the same. -/
theorem of_done {a b : α} {s t : β} (h : Outcome.done (a, s) = .done (b, t)) :
    a = b ∧ s = t := Prod.mk.inj (Outcome.done.inj h)

section

variable {γ : Type} {f : α → β} {b : β}

/-- A call that wraps the result of another returned what that one returned. -/
theorem of_map (h : (x >>= fun a => .done (f a)) = .done b) : ∃ a, x = .done a ∧ f a = b := by
  obtain ⟨a, hx, hrest⟩ := bind_eq_done.mp h
  exact ⟨a, hx, done.inj hrest⟩

theorem of_map₂ {g : α → γ} {c : γ} (h : (x >>= fun a => .done (f a, g a)) = .done (b, c)) :
    ∃ a, x = .done a ∧ f a = b ∧ g a = c := by
  obtain ⟨a, hx, hrest⟩ := bind_eq_done.mp h
  exact ⟨a, hx, of_done hrest⟩

end

/-- A call that succeeds has passed its checks. -/
theorem of_check {c : Prop} [Decidable c] {e : AiosStatus} {s t : β}
    {y : Outcome (AiosStatus × β)} (he : c → e ≠ .ok)
    (h : (if c then .done (e, s) else y) = .done (.ok, t)) : ¬c ∧ y = .done (.ok, t) := by
  split at h
  case isTrue hc => exact absurd (of_done h).1 (he hc)
  case isFalse hc => exact ⟨hc, h⟩

def returns {α : Type} : Outcome α → Bool
  | .done _ => true
  | _ => false

theorem exists_done (h : x.returns = true) : ∃ a, x = .done a := by
  cases x with
  | done a => exact ⟨a, rfl⟩
  | panic m => cases h
  | diverge => cases h

/-- The call returns `a` whatever fuel its loops get, except that fuel up to `bound` may be too
little for them. -/
def EndsBy {α : Type} (bound : Nat) (f : Nat → Outcome α) (a : α) : Prop :=
  ∀ fuel, f fuel = .done a ∨ fuel ≤ bound ∧ f fuel = .diverge

namespace EndsBy

variable {α β : Type} {bound fuel : Nat} {f : Nat → Outcome α} {a b : α}

theorem done (bound : Nat) (a : α) : EndsBy bound (fun _ => .done a) a := fun _ => .inl rfl

theorem bind {g : α → Nat → Outcome β} {c : β} (hf : EndsBy bound f a)
    (hg : EndsBy bound (g a) c) : EndsBy bound (fun fuel => f fuel >>= fun x => g x fuel) c := by
  intro fuel
  rcases hf fuel with h | ⟨hle, h⟩
  · simpa [h] using hg fuel
  · exact .inr ⟨hle, by simp [h]⟩

/-- What a call returned is what it always returns. -/
theorem eq (hf : EndsBy bound f a) (h : f fuel = .done b) : b = a := by
  rcases hf fuel with h' | ⟨-, h'⟩
  · simpa [h] using h'
  · simp [h] at h'

theorem of_lt (hf : EndsBy bound f a) (h : bound < fuel) : f fuel = .done a := by
  rcases hf fuel with h' | ⟨hle, -⟩
  · exact h'
  · exact absurd hle (Nat.not_le.mpr h)

end EndsBy

end Outcome

end AiosKernel
