/-
# `AiosKernel.Lib.Interleave` — threads that take atomic steps over a shared state

A thread has a local state and advances by steps that read and write the shared
one; which thread moves next, and what its step finds in the environment, is up
to the list of events.  Threads are numbered in the order in which they start.

Two rules carry the proofs about all interleavings:

* `run_invariant`, an invariant of the shared state together with one of each
  thread that no other thread's step breaks.  The shared invariant may depend on
  how many threads are `done`, and it may be needed only while these are few;
* `crossing`, which finds in the history the step at which a thread came to
  satisfy what it did not satisfy when it started.
-/
import AiosKernel.Lib.Slots
import Mathlib.Data.Bool.Basic
import Mathlib.Data.List.Induction

namespace Interleave

open List

/-- How threads start, how they advance, and what else may happen to the shared state. -/
structure Machine (σ τ κ ι ο : Type*) where
  fresh : κ → τ
  advance : ι → σ → τ → τ × σ
  outside : ο → σ → σ

/-- The shared state and the threads. -/
structure World (σ τ : Type*) where
  shared : σ
  threads : List τ

/-- A thread starts, a thread advances, or something else happens. -/
inductive Event (κ ι ο : Type*) where
  | start (c : κ)
  | advance (tid : Nat) (i : ι)
  | outside (o : ο)

variable {σ τ κ ι ο : Type*} (M : Machine σ τ κ ι ο)

/-- What an event does; a thread that does not exist does nothing. -/
def step (w : World σ τ) : Event κ ι ο → World σ τ
  | .start c => ⟨w.shared, w.threads ++ [M.fresh c]⟩
  | .advance tid i =>
    match w.threads[tid]? with
    | none => w
    | some t =>
      let (t, s) := M.advance i w.shared t
      ⟨s, w.threads.set tid t⟩
  | .outside o => ⟨M.outside o w.shared, w.threads⟩

/-- The world after the events. -/
def run (w : World σ τ) (es : List (Event κ ι ο)) : World σ τ := es.foldl (step M) w

@[simp] theorem run_nil (w : World σ τ) : run M w [] = w := rfl

theorem run_append (w : World σ τ) (es es' : List (Event κ ι ο)) :
    run M w (es ++ es') = run M (run M w es) es' := foldl_append

theorem run_concat (w : World σ τ) (es : List (Event κ ι ο)) (e : Event κ ι ο) :
    run M w (es ++ [e]) = step M (run M w es) e := run_append M w es [e]

/-- What an event can do to the threads. -/
theorem step_cases (w : World σ τ) (e : Event κ ι ο) :
    (∃ c, e = .start c ∧ step M w e = ⟨w.shared, w.threads ++ [M.fresh c]⟩) ∨
    (∃ tid i, e = .advance tid i ∧ w.threads[tid]? = none ∧ step M w e = w) ∨
    (∃ as t bs i, e = .advance as.length i ∧ w.threads = as ++ t :: bs ∧
      step M w e = ⟨(M.advance i w.shared t).2, as ++ (M.advance i w.shared t).1 :: bs⟩) ∨
    (∃ o, e = .outside o ∧ step M w e = ⟨M.outside o w.shared, w.threads⟩) := by
  cases e with
  | start c => exact .inl ⟨c, rfl, rfl⟩
  | outside o => exact .inr (.inr (.inr ⟨o, rfl, rfl⟩))
  | advance tid i =>
    cases ht : w.threads[tid]? with
    | none => exact .inr (.inl ⟨tid, i, rfl, ht, by simp [step, ht]⟩)
    | some t =>
      obtain ⟨hlt, hget⟩ := List.getElem?_eq_some_iff.mp ht
      have hsplit : w.threads = w.threads.take tid ++ t :: w.threads.drop (tid + 1) := by
        rw [← hget, List.getElem_cons_drop, List.take_append_drop]
      have hlen : (w.threads.take tid).length = tid := List.length_take_of_le (Nat.le_of_lt hlt)
      refine .inr (.inr (.inl ⟨_, t, _, i, by rw [hlen], hsplit, ?_⟩))
      simp only [step, ht]
      rw [set_eq_take_append_cons_drop, if_pos hlt]

/-- A thread is as it was before the event, has just started, or has just advanced. -/
theorem thread_step {M : Machine σ τ κ ι ο} {w : World σ τ} {e : Event κ ι ο} {tid : Nat} {t : τ}
    (ht : (step M w e).threads[tid]? = some t) :
    w.threads[tid]? = some t ∨ (∃ k, t = M.fresh k) ∨
      ∃ i u, e = .advance tid i ∧ w.threads[tid]? = some u ∧ t = (M.advance i w.shared u).1 := by
  cases e with
  | start k =>
    rw [step, getElem?_append] at ht
    split at ht
    · exact .inl ht
    · exact .inr (.inl ⟨k, mem_singleton.mp (mem_of_getElem? ht)⟩)
  | outside o => exact .inl ht
  | advance tid' i =>
    rw [step] at ht
    split at ht
    · exact .inl ht
    · rename_i u hu
      rcases eq_or_ne tid' tid with rfl | hne
      · rw [List.getElem?_set_self (List.getElem?_eq_some_iff.mp hu).1] at ht
        exact .inr (.inr ⟨i, u, rfl, hu, (Option.some.inj ht).symm⟩)
      · rw [getElem?_set_ne hne] at ht
        exact .inl ht

/-! ## Invariants -/

section

variable {M} {w : World σ τ} {es : List (Event κ ι ο)}

/-- How many threads are done. -/
def World.count (done : τ → Bool) (w : World σ τ) : Nat := w.threads.countP done

theorem count_split (done : τ → Bool) (s : σ) (as bs : List τ) (t : τ) :
    World.count done ⟨s, as ++ t :: bs⟩ = as.countP done + bs.countP done + (done t).toNat := by
  cases ht : done t <;> simp [World.count, countP_append, ht, Nat.add_assoc]

/-- Where a thread that is done stays so, their number never drops. -/
theorem count_le_run {done : τ → Bool}
    (hdone : ∀ i s t, done t = true → done (M.advance i s t).1 = true) (w : World σ τ)
    (es : List (Event κ ι ο)) : w.count done ≤ (run M w es).count done := by
  induction es generalizing w with
  | nil => exact Nat.le_refl _
  | cons e es ih =>
    refine Nat.le_trans ?_ (ih (step M w e))
    obtain ⟨c, -, hstep⟩ | ⟨_, _, -, -, hstep⟩ | ⟨as, t, bs, i, -, hthreads, hstep⟩ |
      ⟨o, -, hstep⟩ := step_cases M w e
    · rw [hstep, World.count, World.count, countP_append]
      exact Nat.le_add_right _ _
    · exact Nat.le_of_eq (congrArg _ hstep.symm)
    · obtain ⟨s, ts⟩ := w
      obtain rfl : ts = as ++ t :: bs := hthreads
      rw [hstep, count_split, count_split]
      refine Nat.add_le_add_left ?_ _
      exact Bool.toNat_le_toNat (hdone i s t)
    · rw [hstep]
      exact Nat.le_refl _

/-- `S` holds of the shared state and the number of threads that are done, `I` of every thread. -/
def Holds (S : Nat → σ → Prop) (I : σ → τ → Prop) (done : τ → Bool) (w : World σ τ) : Prop :=
  S (w.count done) w.shared ∧ ∀ t ∈ w.threads, I w.shared t

/-- The shared state keeps `S` and every thread keeps `I`, as long as fewer than `N` threads are
done: `S` may speak of the number of these.  A thread's step must not break the `I` of another. -/
theorem run_invariant {S : Nat → σ → Prop} {I : σ → τ → Prop} {done : τ → Bool} {N : Nat}
    (hstart : ∀ c s, I s (M.fresh c) ∧ done (M.fresh c) = false)
    (hdone : ∀ i s t, done t = true → done (M.advance i s t).1 = true)
    (hadvance : ∀ n i s t, S (n + (done t).toNat) s → I s t →
      n + (done (M.advance i s t).1).toNat < N →
      S (n + (done (M.advance i s t).1).toNat) (M.advance i s t).2 ∧
        I (M.advance i s t).2 (M.advance i s t).1 ∧ ∀ u, I s u → I (M.advance i s t).2 u)
    (houtside : ∀ n o s, S n s → S n (M.outside o s) ∧ ∀ u, I s u → I (M.outside o s) u)
    (hinit : Holds S I done w) (hfew : (run M w es).count done < N) :
    Holds S I done (run M w es) := by
  induction es generalizing w with
  | nil => exact hinit
  | cons e es ih =>
    refine ih ?_ hfew
    have hnow := Nat.lt_of_le_of_lt (count_le_run hdone (step M w e) es) hfew
    obtain ⟨hS, hI⟩ := hinit
    obtain ⟨c, -, hstep⟩ | ⟨_, _, -, -, hstep⟩ | ⟨as, t, bs, i, -, hthreads, hstep⟩ |
      ⟨o, -, hstep⟩ := step_cases M w e
    · -- a new thread is not done
      rw [hstep]
      obtain ⟨hfresh, hnot⟩ := hstart c w.shared
      refine ⟨?_, ?_⟩
      · rw [count_split, hnot]
        exact hS
      · exact forall_mem_append.mpr ⟨hI, forall_mem_singleton.mpr hfresh⟩
    · rw [hstep]
      exact ⟨hS, hI⟩
    · obtain ⟨s, ts⟩ := w
      obtain rfl : ts = as ++ t :: bs := hthreads
      rw [hstep, count_split] at hnow
      rw [count_split] at hS
      have ht : t ∈ as ++ t :: bs := mem_append_right _ mem_cons_self
      obtain ⟨hS', hI', hothers⟩ := hadvance _ i s t hS (hI t ht) hnow
      rw [hstep]
      refine ⟨?_, ?_⟩
      · rw [count_split]
        exact hS'
      · rw [Slots.forall_mem_split] at hI ⊢
        exact ⟨hI', fun u hu => hothers u (hI.2 u hu)⟩
    · rw [hstep]
      obtain ⟨hS', hothers⟩ := houtside _ o _ hS
      exact ⟨hS', fun u hu => hothers u (hI u hu)⟩

/-! ## History -/

/-- A thread that satisfies `Q`, where threads do not when they start, came to satisfy it by one
of its own steps; what its steps keep (`c`) is what it was then. -/
theorem crossing {Q : τ → Prop} {γ : Type*} {c : τ → γ} (hstart : ∀ k, ¬ Q (M.fresh k))
    (hkeep : ∀ i s t, c (M.advance i s t).1 = c t) (hinit : w.threads = []) {tid : Nat} {t : τ}
    (ht : (run M w es).threads[tid]? = some t) (hQ : Q t) :
    ∃ before i after t₀, es = before ++ .advance tid i :: after ∧
      (run M w before).threads[tid]? = some t₀ ∧ c t₀ = c t ∧ ¬ Q t₀ ∧
      Q (M.advance i (run M w before).shared t₀).1 := by
  induction es using List.reverseRecOn generalizing t with
  | nil =>
    rw [run_nil, hinit] at ht
    exact nomatch ht
  | append_singleton es e ih =>
    rw [run_concat] at ht
    -- it satisfied `Q` before the last event already, or the last event is the step
    have hprev : (∃ u, (run M w es).threads[tid]? = some u ∧ c u = c t ∧ Q u) ∨
        ∃ i u, e = .advance tid i ∧ (run M w es).threads[tid]? = some u ∧ c u = c t ∧ ¬ Q u ∧
          Q (M.advance i (run M w es).shared u).1 := by
      obtain hold | ⟨k, rfl⟩ | ⟨i, u, rfl, hu, rfl⟩ := thread_step ht
      · exact .inl ⟨t, hold, rfl, hQ⟩
      · exact absurd hQ (hstart k)
      · have hc := (hkeep i (run M w es).shared u).symm
        by_cases hQu : Q u
        · exact .inl ⟨u, hu, hc, hQu⟩
        · exact .inr ⟨i, u, rfl, hu, hc, hQu, hQ⟩
    obtain ⟨u, hu, hc, hQu⟩ | ⟨i, u, rfl, hu, hc, hcross⟩ := hprev
    · obtain ⟨before, i, after, t₀, rfl, ht₀, hct₀, hcross⟩ := ih hu hQu
      exact ⟨before, i, after ++ [e], t₀, by simp, ht₀, hct₀.trans hc, hcross⟩
    · exact ⟨es, i, [], u, rfl, hu, hc, hcross⟩

end

end Interleave
