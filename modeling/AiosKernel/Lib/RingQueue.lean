/-
# `AiosKernel.Lib.RingQueue` — a queue in a circular buffer

The buffer, where the queue begins, where the next element goes and how many
there are; a `RingQueue` is one whose two ends agree with the number.  What it holds
is a list, `contents`, to whose end `push` adds and from whose front `pop` takes.
-/
import Mathlib.Data.Nat.ModEq
import Mathlib.Data.List.Basic

/-- A circular buffer for `cap` elements. -/
structure RingQueue (α : Type*) (cap : Nat) where
  cells : Fin cap → α
  head : Nat
  tail : Nat
  count : Nat
  head_lt : head < cap
  count_le : count ≤ cap
  tail_eq : tail = (head + count) % cap

namespace RingQueue

open List Function

variable {α : Type*} {cap : Nat}

/-- A position, wrapped around. -/
def index (r : RingQueue α cap) (i : Nat) : Fin cap :=
  ⟨i % cap, Nat.mod_lt i (Nat.zero_lt_of_lt r.head_lt)⟩

/-- The elements from the front to the end. -/
def contents (r : RingQueue α cap) : List α :=
  (List.range r.count).map fun i => r.cells (r.index (r.head + i))

def empty (cells : Fin cap → α) (h : 0 < cap) : RingQueue α cap where
  cells := cells
  head := 0
  tail := 0
  count := 0
  head_lt := h
  count_le := Nat.zero_le _
  tail_eq := (Nat.zero_mod _).symm

/-- Write at the tail, if there is room. -/
def push (r : RingQueue α cap) (x : α) (h : r.count < cap) : RingQueue α cap where
  cells := update r.cells (r.index r.tail) x
  head := r.head
  tail := (r.tail + 1) % cap
  count := r.count + 1
  head_lt := r.head_lt
  count_le := h
  tail_eq := by rw [r.tail_eq, Nat.mod_add_mod, Nat.add_assoc]

def front (r : RingQueue α cap) : α := r.cells (r.index r.head)

/-- Move past the head, if there is an element. -/
def pop (r : RingQueue α cap) (h : 0 < r.count) : RingQueue α cap where
  cells := r.cells
  head := (r.head + 1) % cap
  tail := r.tail
  count := r.count - 1
  head_lt := Nat.mod_lt _ (Nat.zero_lt_of_lt r.head_lt)
  count_le := Nat.le_trans (Nat.sub_le _ _) r.count_le
  tail_eq := by
    have hcount : r.head + 1 + (r.count - 1) = r.head + r.count := by omega
    rw [r.tail_eq, Nat.mod_add_mod, hcount]

@[simp] theorem length_contents (r : RingQueue α cap) : r.contents.length = r.count := by
  simp [contents]

theorem mod_ne {i j : Nat} (hij : i < j) (hj : j < i + cap) : i % cap ≠ j % cap := by
  intro hmod
  have hdvd : cap ∣ j - i := (Nat.modEq_iff_dvd' hij.le).mp hmod
  exact absurd (Nat.le_of_dvd (Nat.sub_pos_of_lt hij) hdvd) (by omega)

theorem contents_push (r : RingQueue α cap) (x : α) (h : r.count < cap) :
    (r.push x h).contents = r.contents ++ [x] := by
  have htail : r.index r.tail = r.index (r.head + r.count) := by
    rw [index, index, Fin.mk.injEq, r.tail_eq, Nat.mod_mod]
  have hlast : (r.push x h).cells ((r.push x h).index (r.head + r.count)) = x := by
    show update r.cells (r.index r.tail) x (r.index (r.head + r.count)) = x
    rw [htail, update_self]
  have hold : ∀ i ∈ List.range r.count, (r.push x h).cells ((r.push x h).index (r.head + i)) =
      r.cells (r.index (r.head + i)) := by
    intro i hi
    have hlt := mem_range.mp hi
    show update r.cells (r.index r.tail) x (r.index (r.head + i)) = _
    rw [htail, update_of_ne fun he => mod_ne (by omega) (by omega) (congrArg Fin.val he)]
  show (List.range (r.count + 1)).map
    (fun i => (r.push x h).cells ((r.push x h).index (r.head + i))) = _
  rw [range_succ, map_append, map_congr_left hold, map_singleton, hlast]
  rfl

theorem contents_pop (r : RingQueue α cap) (h : 0 < r.count) :
    r.contents = r.front :: (r.pop h).contents := by
  obtain ⟨n, hn⟩ := Nat.exists_eq_succ_of_ne_zero (Nat.pos_iff_ne_zero.mp h)
  have hindex : ∀ i, r.index (r.head + (i + 1)) = (r.pop h).index ((r.pop h).head + i) := by
    intro i
    show r.index (r.head + (i + 1)) = r.index ((r.head + 1) % cap + i)
    rw [index, index, Fin.mk.injEq, Nat.mod_add_mod]
    congr 1
    omega
  have hcount : (r.pop h).count = n := by
    show r.count - 1 = n
    omega
  rw [contents, contents, hn, hcount, range_succ_eq_map, map_cons, map_map]
  refine congrArg (_ :: ·) (map_congr_left ?_)
  intro i _
  exact congrArg r.cells (hindex i)

theorem front_mem (r : RingQueue α cap) (h : 0 < r.count) : r.front ∈ r.contents := by
  rw [r.contents_pop h]
  exact mem_cons_self

end RingQueue
