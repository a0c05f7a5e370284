/-
# `AiosKernel.Lib.Slots` — tables searched for the first entry that passes a test

A fixed table of records is a list, a pointer to a record its position.  The
position the search returns cuts the list in two (`findIdx?_split`), and reading
or writing there is then an equation on the parts.

A table whose live entries have distinct keys is a finite map (`Distinct`,
`lookup`): every write replaces one entry `x` by another `y`, and the lemmas of
the second part say what that does to the map.
-/
import Mathlib.Data.List.Nodup

namespace Slots

open List

variable {α : Type*} {p : α → Bool} {l as bs : List α} {x : α} {i : Nat}

/-- What the search finds lies between entries that fail the test and the rest. -/
theorem findIdx?_split (h : l.findIdx? p = some i) :
    ∃ as x bs, l = as ++ x :: bs ∧ i = as.length ∧ p x = true ∧ ∀ y ∈ as, p y = false := by
  induction l generalizing i with
  | nil => exact nomatch h
  | cons y ys ih =>
    rw [findIdx?_cons] at h
    cases hy : p y with
    | true =>
      simp only [hy, if_true, Option.some.injEq] at h
      exact ⟨[], y, ys, rfl, h.symm, hy, by simp⟩
    | false =>
      simp only [hy, Bool.false_eq_true, if_false, Option.map_eq_some_iff] at h
      obtain ⟨j, hj, rfl⟩ := h
      obtain ⟨as, x, bs, rfl, rfl, hx, has⟩ := ih hj
      exact ⟨y :: as, x, bs, rfl, rfl, hx, forall_mem_cons.mpr ⟨hy, has⟩⟩

theorem mem_split {y : α} : y ∈ as ++ x :: bs ↔ y = x ∨ y ∈ as ++ bs := by
  simp only [mem_append, mem_cons, or_left_comm]

/-- What holds of all entries holds of the one that is written, and of the rest. -/
theorem forall_mem_split {P : α → Prop} :
    (∀ y ∈ as ++ x :: bs, P y) ↔ P x ∧ ∀ y ∈ as ++ bs, P y := by
  simp only [mem_split, forall_eq_or_imp]

/-- What holds of all entries still does after one of them is written. -/
theorem forall_written {P : α → Prop} {l' : List α} {y : α} (h : ∀ z ∈ l, P z)
    (hl : l = as ++ x :: bs) (hl' : l' = as ++ y :: bs) (hy : P y) : ∀ z ∈ l', P z := by
  subst hl hl'
  exact forall_mem_split.mpr ⟨hy, (forall_mem_split.mp h).2⟩

@[simp] theorem getD_split (d : α) : (as ++ x :: bs).getD as.length d = x := by
  simp [List.getD]

@[simp] theorem set_split (y : α) : (as ++ x :: bs).set as.length y = as ++ y :: bs := by
  rw [set_append_right _ _ (Nat.le_refl _), Nat.sub_self]
  rfl

@[simp] theorem modify_split (f : α → α) :
    (as ++ x :: bs).modify as.length f = as ++ f x :: bs := by
  induction as with
  | nil => rfl
  | cons a as ih => simpa using ih

/-- A write changes no position but its own. -/
theorem changed_split {j : Nat} {y z : α} (hold : (as ++ x :: bs)[j]? = some z)
    (hnew : (as ++ y :: bs)[j]? ≠ some z) : j = as.length ∧ x = z := by
  rcases eq_or_ne j as.length with rfl | hne
  · exact ⟨rfl, by simpa using hold⟩
  · refine absurd ?_ hnew
    rw [← hold, ← set_split y, getElem?_set_ne hne.symm]

/-- Any other position holds an entry of one of the two parts. -/
theorem mem_of_getElem?_ne {j : Nat} {z : α} (h : (as ++ x :: bs)[j]? = some z)
    (hne : j ≠ as.length) : z ∈ as ++ bs := by
  rcases Nat.lt_or_ge j as.length with hlt | hge
  · rw [getElem?_append_left hlt] at h
    exact mem_append_left _ (mem_of_getElem? h)
  · obtain ⟨k, rfl⟩ := Nat.exists_eq_add_of_lt (Nat.lt_of_le_of_ne hge hne.symm)
    rw [getElem?_append_right hge, Nat.add_assoc, Nat.add_sub_cancel_left,
      getElem?_cons_succ] at h
    exact mem_append_right _ (mem_of_getElem? h)

/-- If a second table has `f x` beside each live entry `x`, its entries there are the images of the
live ones. -/
theorem map_snd_zip_live {β : Type*} {live : α → Bool} {f : α → β} {ys : List β}
    (hlen : ys.length = l.length)
    (h : ∀ (j : Nat) (x : α), l[j]? = some x → live x = true → ys[j]? = some (f x)) :
    ((l.zip ys).filter fun z => live z.1).map Prod.snd = (l.filter live).map f := by
  induction l generalizing ys with
  | nil => rfl
  | cons x xs ih =>
    cases ys with
    | nil => cases hlen
    | cons y ys =>
      have htail := ih (Nat.succ.inj hlen) fun j z hz => h (j + 1) z hz
      cases hx : live x with
      | true =>
        have hy : y = f x := by simpa using h 0 x rfl hx
        simp [hx, hy, htail]
      | false => simp [hx, htail]

/-! ## Keyed tables -/

section Keyed

variable {κ : Type*} [DecidableEq κ] {live : α → Bool} {key : α → κ} {k : κ} {y : α}

/-- The entry is live and has the key. -/
def holds (live : α → Bool) (key : α → κ) (k : κ) (x : α) : Bool := live x && key x == k

@[simp] theorem holds_eq_true : holds live key k x = true ↔ live x = true ∧ key x = k := by
  simp [holds]

theorem holds_eq_false : holds live key k x = false ↔ (live x = true → key x ≠ k) := by
  rw [← Bool.not_eq_true, holds_eq_true, not_and]

/-- The entry a key leads to. -/
def lookup (live : α → Bool) (key : α → κ) (l : List α) (k : κ) : Option α :=
  l.find? (holds live key k)

/-- No two live entries have the same key. -/
def Distinct (live : α → Bool) (key : α → κ) (l : List α) : Prop :=
  ((l.filter live).map key).Nodup

theorem lookup_eq_none : lookup live key l k = none ↔ ∀ x ∈ l, live x = true → key x ≠ k := by
  simp [lookup, find?_eq_none]

theorem mem_of_lookup (h : lookup live key l k = some x) : x ∈ l ∧ live x = true ∧ key x = k :=
  ⟨mem_of_find?_eq_some h, holds_eq_true.mp (find?_some h)⟩

/-- The first entry that holds the key is the one it leads to. -/
theorem lookup_here (has : ∀ a ∈ as, holds live key k a = false)
    (hx : holds live key k x = true) : lookup live key (as ++ x :: bs) k = some x := by
  rw [lookup, find?_append, find?_eq_none.mpr fun a ha => by simp [has a ha],
    Option.none_or, find?_cons_of_pos hx]

/-- A write between entries that do not hold the key does not show under it. -/
theorem lookup_other (hx : holds live key k x = false) (hy : holds live key k y = false) :
    lookup live key (as ++ y :: bs) k = lookup live key (as ++ x :: bs) k := by
  rw [lookup, lookup, find?_append, find?_append,
    find?_cons_of_neg (Bool.not_eq_true _ ▸ hy),
    find?_cons_of_neg (Bool.not_eq_true _ ▸ hx)]

omit [DecidableEq κ] in
theorem distinct_dead (hx : live x = false) :
    Distinct live key (as ++ x :: bs) ↔ Distinct live key (as ++ bs) := by
  simp [Distinct, filter_append, hx]

omit [DecidableEq κ] in
theorem distinct_live (hx : live x = true) :
    Distinct live key (as ++ x :: bs) ↔
      (∀ a ∈ as ++ bs, live a = true → key a ≠ key x) ∧ Distinct live key (as ++ bs) := by
  simp only [Distinct, filter_append, filter_cons, hx, if_true, map_append,
    map_cons, nodup_middle, nodup_cons]
  rw [← map_append, ← filter_append]
  refine and_congr_left' ?_
  simp only [mem_map, mem_filter, not_exists, not_and, and_imp]

omit [DecidableEq κ] in
/-- A live entry may be edited as long as it keeps its key. -/
theorem Distinct.edit (h : Distinct live key (as ++ x :: bs)) (hx : live x = true)
    (hy : live y = true) (hkey : key y = key x) : Distinct live key (as ++ y :: bs) := by
  rw [distinct_live hx] at h
  rw [distinct_live hy, hkey]
  exact h

/-- A live entry among distinct ones is found under its key. -/
theorem lookup_of_mem (h : Distinct live key l) (hx : x ∈ l) (hlive : live x = true) :
    lookup live key l (key x) = some x := by
  obtain ⟨as, bs, rfl⟩ := append_of_mem hx
  refine lookup_here ?_ (by simp [hlive])
  intro a ha
  exact holds_eq_false.mpr (((distinct_live hlive).mp h).1 a (mem_append_left _ ha))

end Keyed

end Slots
