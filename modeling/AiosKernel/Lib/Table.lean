/-
# `AiosKernel.Lib.Table` — checking a table of records from the front

A checker goes through the used records of a table, and looks at each one
together with those before it: `firstAfter`, `eachAfter`.  From such a walk come
the facts one wants of the whole table.  Keys that are new each time are pairwise
distinct, and if every record of a second table points at a key of the first,
then counting the pointers key by key counts the second table.

Unused records are compared with zero byte by byte; `layout` are the bytes of a
record that is a row of little-endian words.
-/
import Mathlib.Algebra.BigOperators.Group.List.Basic
import Mathlib.Algebra.Ring.Nat
import Mathlib.Data.List.Nodup

namespace Table

open List

variable {α β κ : Type*}

/-! ## Walking through the records -/

/-- The first answer other than `ok` that a record gives together with the ones before it. -/
def firstAfter {ε : Type*} [DecidableEq ε] (ok : ε) (f : List α → α → ε) : List α → List α → ε
  | _, [] => ok
  | before, x :: xs =>
    if f before x = ok then firstAfter ok f (before ++ [x]) xs else f before x

theorem firstAfter_eq_ok {ε : Type*} [DecidableEq ε] {ok : ε} {f : List α → α → ε}
    {before xs : List α} : firstAfter ok f before xs = ok ↔
      ∀ as x bs, xs = as ++ x :: bs → f (before ++ as) x = ok := by
  induction xs generalizing before with
  | nil => simp [firstAfter]
  | cons x xs ih =>
    constructor
    · intro h as y bs heq
      rw [firstAfter] at h
      split at h
      · cases as with
        | nil =>
          cases heq
          rwa [append_nil]
        | cons a as =>
          cases heq
          rw [append_cons]
          exact ih.mp h as y bs rfl
      · rename_i hx
        exact absurd h hx
    · intro h
      have hx : f before x = ok := by simpa using h [] x xs rfl
      rw [firstAfter, if_pos hx, ih]
      intro as y bs heq
      rw [← append_cons]
      exact h (x :: as) y bs (by rw [heq]; rfl)

/-- The test holds of each record and the ones before it. -/
def eachAfter (p : List α → α → Bool) (xs : List α) : Bool := firstAfter true p [] xs

theorem eachAfter_iff {p : List α → α → Bool} {xs : List α} :
    eachAfter p xs = true ↔ ∀ as x bs, xs = as ++ x :: bs → p as x = true :=
  firstAfter_eq_ok

section

variable {p : List α → α → Bool} {xs : List α}

theorem eachAfter_mem {q : α → Prop} (h : eachAfter p xs = true)
    (hq : ∀ before x, p before x = true → q x) : ∀ x ∈ xs, q x := by
  intro x hx
  obtain ⟨as, bs, rfl⟩ := append_of_mem hx
  exact hq _ x (eachAfter_iff.mp h as x bs rfl)

/-- Keys that are new each time are distinct. -/
theorem eachAfter_nodup [DecidableEq κ] {key : α → κ} (h : eachAfter p xs = true)
    (hkey : ∀ before x, p before x = true → before.all (key · != key x) = true) :
    (xs.map key).Nodup := by
  have hnew : ∀ as x bs, xs = as ++ x :: bs → ∀ y ∈ as, key y ≠ key x := by
    intro as x bs heq y hy
    have hall := hkey _ x (eachAfter_iff.mp h as x bs heq)
    exact bne_iff_ne.mp (all_eq_true.mp hall y hy)
  clear h hkey
  induction xs with
  | nil => exact nodup_nil
  | cons x xs ih =>
    rw [map_cons, nodup_cons]
    refine ⟨?_, ih ?_⟩
    · intro hx
      obtain ⟨y, hy, heq⟩ := mem_map.mp hx
      obtain ⟨as, bs, rfl⟩ := append_of_mem hy
      exact hnew (x :: as) y bs rfl x mem_cons_self heq.symm
    · intro as y bs heq z hz
      exact hnew (x :: as) y bs (by rw [heq]; rfl) z (mem_cons_of_mem x hz)

end

/-! ## Counting by key -/

variable [DecidableEq κ]

theorem sum_indicator (k : κ) (keys : List κ) :
    (keys.map fun k' => if k == k' then 1 else 0).sum = keys.count k := by
  induction keys with
  | nil => rfl
  | cons k' keys ih =>
    rw [map_cons, sum_cons, ih, count_cons, Nat.add_comm,
      show (k == k') = (k' == k) from BEq.comm]

/-- Records that point at one of the keys are counted once, under their key. -/
theorem sum_countP {ref : β → κ} {keys : List κ} (hkeys : keys.Nodup) {ys : List β}
    (href : ∀ y ∈ ys, ref y ∈ keys) :
    (keys.map fun k => ys.countP fun y => ref y == k).sum = ys.length := by
  induction ys with
  | nil => simp
  | cons y ys ih =>
    have hone : (keys.map fun k => if ref y == k then 1 else 0).sum = 1 := by
      rw [sum_indicator, count_eq_one_of_mem hkeys (href y mem_cons_self)]
    simp only [countP_cons, sum_map_add, length_cons, hone]
    rw [ih fun z hz => href z (mem_cons_of_mem y hz)]

/-! ## Bytes -/

/-- The bytes of a word of `w` bytes, lowest first. -/
def wordBytes : Nat → Nat → List UInt8
  | 0, _ => []
  | w + 1, x => UInt8.ofNat x :: wordBytes w (x / 256)

/-- The bytes of a row of words, each with its size. -/
def layout (words : List (Nat × Nat)) : List UInt8 :=
  words.flatMap fun word => wordBytes word.1 word.2

end Table
