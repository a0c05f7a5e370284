/-
# `AiosKernel.Lib.RingLog` — a log that keeps its last entries in a circular buffer

An entry is written at `head`, `head` moves on, and `count` grows until the buffer
is full; from then on the oldest entry is written over.  `Keeps` says what such a
buffer has to do with everything that was ever logged, and `entries_eq` that
reading it from the oldest entry on gives the end of that list.
-/
import AiosKernel.Lib.RingQueue

/-- A circular buffer that forgets. -/
structure RingLog (α : Type*) where
  cells : Nat → α
  head : Nat
  count : Nat

namespace RingLog

variable {α : Type*} {cap : Nat} {r : RingLog α} {log : List α}

/-- Write an entry at the head. -/
def push (cap : Nat) (r : RingLog α) (x : α) : RingLog α where
  cells := Function.update r.cells r.head x
  head := (r.head + 1) % cap
  count := if r.count < cap then r.count + 1 else r.count

/-- The entries from the oldest to the newest. -/
def entries (cap : Nat) (r : RingLog α) : List α :=
  (List.range r.count).map fun i => r.cells ((r.head + (cap - r.count) + i) % cap)

/-- The buffer holds the last entries of the log: entry number `i` is in cell `i % cap`. -/
structure Keeps (cap : Nat) (r : RingLog α) (log : List α) : Prop where
  head_eq : r.head = log.length % cap
  count_eq : r.count = min log.length cap
  cell : ∀ i x, log[i]? = some x → log.length ≤ i + cap → r.cells (i % cap) = x

theorem Keeps.nil (h : r.head = 0) (hcount : r.count = 0) : Keeps cap r [] :=
  ⟨by simp [h], by simp [hcount], by simp⟩

theorem Keeps.push (h : Keeps cap r log) (x : α) : Keeps cap (r.push cap x) (log ++ [x]) := by
  have hlen : (log ++ [x]).length = log.length + 1 := by simp
  refine ⟨?_, ?_, fun i y hi hle => ?_⟩
  · rw [hlen]
    show (r.head + 1) % cap = _
    rw [h.head_eq, Nat.mod_add_mod]
  · have hcount := h.count_eq
    show (if r.count < cap then r.count + 1 else r.count) = _
    split <;> omega
  · show Function.update r.cells r.head x (i % cap) = y
    rw [h.head_eq]
    rcases Nat.lt_or_ge i log.length with hlt | hge
    · -- an entry that the new one does not write over
      rw [Function.update_of_ne (RingQueue.mod_ne hlt (by omega))]
      rw [List.getElem?_append_left hlt] at hi
      exact h.cell i y hi (by omega)
    · obtain rfl : i = log.length := by
        have hin := (List.getElem?_eq_some_iff.mp hi).1
        omega
      simpa using hi

/-- Reading the buffer gives the end of the log. -/
theorem Keeps.entries_eq (h : Keeps cap r log) :
    r.entries cap = log.drop (log.length - r.count) := by
  have hcount := h.count_eq
  apply List.ext_getElem?
  intro i
  rw [entries, List.getElem?_map, List.getElem?_drop]
  rcases Nat.lt_or_ge i r.count with hlt | hge
  · have hin : log.length - r.count + i < log.length := by omega
    obtain ⟨x, hx⟩ : ∃ x, log[log.length - r.count + i]? = some x := ⟨_, List.getElem?_eq_getElem hin⟩
    rw [List.getElem?_range hlt, hx, Option.map_some, ← h.cell _ x hx (by omega), h.head_eq]
    congr 2
    rcases Nat.lt_or_ge log.length cap with hless | hmore
    · -- not full yet: the log begins at cell 0
      rw [Nat.mod_eq_of_lt hless, show log.length + (cap - r.count) + i = cap + i by omega,
        Nat.add_mod_left, show log.length - r.count + i = i by omega]
    · rw [show cap - r.count = 0 by omega, Nat.add_zero, Nat.mod_add_mod,
        show log.length + i = log.length - r.count + i + cap by omega, Nat.add_mod_right]
  · rw [List.getElem?_eq_none (by simpa using hge), List.getElem?_eq_none (by omega)]
    rfl

end RingLog
