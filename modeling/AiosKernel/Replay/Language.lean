/-
# `AiosKernel.Replay.Language` — the words of a binding's lifecycle

What a trace is meant to be, without generations and instances: a source is
discovered and bound, is observed while it is bound, goes stale by an update
and current again by a rebind, exits, and is rediscovered under a new instance.
`lifecycle` says it as a regular expression and `Mode` as an automaton; that
the two agree is Arden's lemma, applied to the equations between the languages
of the automaton's states.
-/
import AiosKernel.Replay.Contract
import Mathlib.Computability.RegularExpressions
import Mathlib.Tactic.Abel

namespace AiosKernel.Replay

open Computability

/-! ## The expression -/

section Expression

open RegularExpression

def letter (e : EventName) : RegularExpression EventName := char e

/-- `O | U R`: what leaves the source bound. -/
def steady : RegularExpression EventName := letter .observe + letter .update * letter .rebind

/-- `X D R`: what replaces the source by a new instance. -/
def renewal : RegularExpression EventName :=
  letter .exit * letter .discover * letter .rebind

/-- `empty | U | X | X D`: where a trace can stop after a binding. -/
def ending : RegularExpression EventName :=
  1 + letter .update + letter .exit + letter .exit * letter .discover

/-- `D ( B (O | U R)* ( X D R (O | U R)* )* ( empty | U | X | X D ) )?` -/
def lifecycle : RegularExpression EventName :=
  letter .discover *
    (letter .bind * (steady.star * (renewal * steady.star).star * ending) + 1)

end Expression

/-! ## The automaton -/

/-- Where a source is in its lifecycle. -/
inductive Mode where
  | start
  | first
  | bound
  | stale
  | exited
  deriving DecidableEq, Repr

namespace Mode

/-- The events that are accepted in a mode, and where they lead. -/
def step : Mode → EventName → Option Mode
  | start, .discover => some first
  | first, .bind => some bound
  | bound, .observe => some bound
  | bound, .update => some stale
  | bound, .exit => some exited
  | stale, .rebind => some bound
  | exited, .discover => some stale
  | _, _ => none

/-- The mode after a word. -/
def run : Mode → List EventName → Option Mode
  | q, [] => some q
  | q, e :: w => (q.step e).bind (run · w)

/-- The words from a mode on: those that the automaton reads, and not none at the start. -/
def words (q : Mode) : Language EventName := {w | ∃ q', q.run w = some q' ∧ q' ≠ start}

theorem run_append (q : Mode) (v w : List EventName) :
    q.run (v ++ w) = (q.run v).bind (run · w) := by
  induction v generalizing q with
  | nil => rfl
  | cons e v ih =>
    show (q.step e).bind (run · (v ++ w)) = ((q.step e).bind (run · v)).bind (run · w)
    cases q.step e with
    | none => rfl
    | some q' => exact ih q'

variable {q : Mode}

theorem nil_mem_words : [] ∈ q.words ↔ q ≠ start := by
  constructor
  · rintro ⟨q', hrun, hq⟩
    cases hrun
    exact hq
  · intro hq
    exact ⟨q, rfl, hq⟩

theorem cons_mem_words {e : EventName} {w : List EventName} :
    e :: w ∈ q.words ↔ ∃ q', q.step e = some q' ∧ w ∈ q'.words := by
  constructor
  · rintro ⟨q', hrun, hq⟩
    obtain ⟨q₁, hstep, hrest⟩ := Option.bind_eq_some_iff.mp hrun
    exact ⟨q₁, hstep, q', hrest, hq⟩
  · rintro ⟨q₁, hstep, q', hrest, hq⟩
    exact ⟨q', Option.bind_eq_some_iff.mpr ⟨q₁, hstep, hrest⟩, hq⟩

end Mode

/-! ## The equations of the automaton -/

section Equations

variable {l : Language EventName}

theorem cons_mem_letter_mul {e f : EventName} {w : List EventName} :
    e :: w ∈ (letter f).matches' * l ↔ e = f ∧ w ∈ l := by
  constructor
  · rintro ⟨a, ha, b, hb, hab⟩
    cases (Set.mem_singleton_iff.mp ha : a = [f])
    cases hab
    exact ⟨rfl, hb⟩
  · rintro ⟨rfl, hw⟩
    exact ⟨[e], rfl, w, hw, rfl⟩

theorem nil_mem_letter_mul {f : EventName} : [] ∉ (letter f).matches' * l := by
  rintro ⟨a, ha, b, -, hab⟩
  cases (Set.mem_singleton_iff.mp ha : a = [f])
  cases hab

theorem words_eq {q : Mode} (hnil : [] ∈ l ↔ q ≠ .start)
    (hcons : ∀ e w, e :: w ∈ l ↔ ∃ q', q.step e = some q' ∧ w ∈ q'.words) : q.words = l := by
  ext w
  cases w with
  | nil => exact Mode.nil_mem_words.trans hnil.symm
  | cons e w => exact Mode.cons_mem_words.trans (hcons e w).symm

/-- What a mode reads, one event at a time. -/
def Mode.unfolded : Mode → Language EventName
  | start => (letter .discover).matches' * first.words
  | first => (letter .bind).matches' * bound.words + 1
  | stale => (letter .rebind).matches' * bound.words + 1
  | exited => (letter .discover).matches' * stale.words + 1
  | bound => (letter .observe).matches' * bound.words + (letter .update).matches' * stale.words +
      (letter .exit).matches' * exited.words + 1

theorem words_unfold (q : Mode) : q.words = q.unfolded := by
  refine words_eq ?_ fun e w => ?_
  · cases q <;> simp [-add_eq_sup, Mode.unfolded, Language.mem_add, nil_mem_letter_mul]
  · cases q <;> cases e <;>
      simp [-add_eq_sup, Mode.unfolded, Language.mem_add, Mode.step, cons_mem_letter_mul]

end Equations

/-! ## The automaton reads the expression -/

theorem eq_kstar_mul_kstar {α : Type} {l m n x : Language α} (hl : [] ∉ l) (hm : [] ∉ m)
    (hx : x = l * x + m * x + n) : x = l∗ * (m * l∗)∗ * n := by
  -- both sides solve `x = (l + m) x + n`, which has one solution
  have hlm : [] ∉ l + m := fun h => h.elim hl hm
  have hsolves : l∗ * (m * l∗)∗ * n = (l + m) * (l∗ * (m * l∗)∗ * n) + n := by
    have hstar := Language.one_add_self_mul_kstar_eq_kstar l
    have hinner := Language.one_add_self_mul_kstar_eq_kstar (m * l∗)
    calc l∗ * (m * l∗)∗ * n = (1 + l * l∗) * (m * l∗)∗ * n := by rw [hstar]
      _ = l * (l∗ * (m * l∗)∗ * n) + (m * l∗)∗ * n := by
          simp only [add_mul, one_mul, mul_assoc]
          exact add_comm _ _
      _ = l * (l∗ * (m * l∗)∗ * n) + (1 + m * l∗ * (m * l∗)∗) * n := by rw [hinner]
      _ = l * (l∗ * (m * l∗)∗ * n) + (m * (l∗ * (m * l∗)∗ * n) + n) := by
          simp only [add_mul, one_mul, mul_assoc, add_comm]
      _ = (l + m) * (l∗ * (m * l∗)∗ * n) + n := by rw [add_mul, add_assoc]
  rw [← add_mul] at hx
  rw [(Language.self_eq_mul_add_iff hlm).mp hx, ← (Language.self_eq_mul_add_iff hlm).mp hsolves]

theorem nil_mem_steady : [] ∉ steady.matches' := by
  rintro (h | h)
  · cases (Set.mem_singleton_iff.mp h : [] = [EventName.observe])
  · exact nil_mem_letter_mul h

theorem nil_mem_renewal : [] ∉ renewal.matches' := by
  show [] ∉ (letter .exit).matches' * (letter .discover).matches' * (letter .rebind).matches'
  rw [mul_assoc]
  exact nil_mem_letter_mul

theorem words_bound_eq :
    Mode.bound.words = (steady.star * (renewal * steady.star).star * ending).matches' := by
  refine eq_kstar_mul_kstar nil_mem_steady nil_mem_renewal ?_
  nth_rewrite 1 [words_unfold]
  rw [Mode.unfolded, words_unfold .exited, Mode.unfolded, words_unfold .stale, Mode.unfolded]
  simp only [steady, renewal, ending, RegularExpression.matches'_add,
    RegularExpression.matches'_mul, RegularExpression.matches'_epsilon, mul_add, add_mul, mul_one,
    mul_assoc]
  abel

theorem mem_lifecycle {w : List EventName} :
    w ∈ lifecycle.matches' ↔ ∃ q, Mode.start.run w = some q ∧ q ≠ .start := by
  show _ ↔ w ∈ Mode.start.words
  rw [words_unfold, Mode.unfolded, words_unfold .first, Mode.unfolded, words_bound_eq]
  rfl

end AiosKernel.Replay
