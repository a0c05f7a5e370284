/-
# `AiosKernel.LibString` — copies between ranges that may overlap

Model of `memmove` in `kernel/lib/string.c`, on the bytes of the memory.  It copies
upwards where the destination lies before the source and downwards where it lies
behind, so that no byte is written before it has been read.  Both directions are folds
over the same range of indices, from its two ends.
-/
import AiosKernel.Lib.Word
import Mathlib.Data.List.Range

namespace AiosKernel.LibString

open Word Function List

/-- `d[i] = s[i]`, in the bytes of the memory. -/
def copyByte (d s i : Nat) (mem : Nat → UInt8) : Nat → UInt8 :=
  update mem (u64 (d + i)) (mem (u64 (s + i)))

def memmove (d s count : Nat) (mem : Nat → UInt8) : Nat → UInt8 :=
  if d < s then (List.range count).foldl (fun mem i => copyByte d s i mem) mem
  -- from the last byte on
  else if s < d then (List.range count).foldr (copyByte d s) mem
  else mem

/-- The bytes from `d` on are those that were from `s` on, and no other has changed. -/
def Moved (d s count : Nat) (mem mem' : Nat → UInt8) : Prop :=
  ∀ a, mem' a = if d ≤ a ∧ a < d + count then mem (s + (a - d)) else mem a

section

variable {d s count : Nat} (hd : d + count ≤ 2 ^ 64) (hs : s + count ≤ 2 ^ 64)
include hd hs

theorem moved_up (hlt : d < s) (mem : Nat → UInt8) :
    Moved d s count mem ((List.range count).foldl (fun mem i => copyByte d s i mem) mem) := by
  induction count with
  | zero => exact fun a => (if_neg (by omega)).symm
  | succ n ih =>
    have hrest := ih (by omega) (by omega)
    intro a
    -- the source byte lies behind everything that was written
    rw [range_succ, foldl_append, foldl_cons, foldl_nil, copyByte, u64_eq (by omega),
      u64_eq (by omega), hrest (s + n), if_neg (by omega)]
    rcases eq_or_ne a (d + n) with rfl | ha
    · rw [update_self, if_pos (by omega), Nat.add_sub_cancel_left]
    · rw [update_of_ne ha, hrest a]
      exact if_congr (by omega) rfl rfl

theorem moved_down (hlt : s < d) (mem : Nat → UInt8) :
    Moved d s count mem ((List.range count).foldr (copyByte d s) mem) := by
  induction count generalizing mem with
  | zero => exact fun a => (if_neg (by omega)).symm
  | succ n ih =>
    have hrest := ih (by omega) (by omega) (copyByte d s n mem)
    intro a
    -- what is read later lies before the byte that is written now
    rw [range_succ, foldr_append, foldr_cons, foldr_nil, hrest a, copyByte, u64_eq (by omega),
      u64_eq (by omega)]
    rcases eq_or_ne a (d + n) with rfl | ha
    · rw [if_neg (by omega), update_self, if_pos (by omega), Nat.add_sub_cancel_left]
    · rw [update_of_ne ha]
      split
      · rw [update_of_ne (by omega), if_pos (by omega)]
      · rw [if_neg (by omega)]

/-- **`memmove` leaves the source bytes at the destination, for every kind of overlap**, and all
other bytes as they were. -/
theorem memmove_exact (mem : Nat → UInt8) :
    (∀ i < count, memmove d s count mem (d + i) = mem (s + i)) ∧
      ∀ a, (∀ i < count, a ≠ d + i) → memmove d s count mem a = mem a := by
  have hmoved : Moved d s count mem (memmove d s count mem) := by
    unfold memmove
    split
    · exact moved_up hd hs ‹_› mem
    split
    · exact moved_down hd hs ‹_› mem
    · intro a
      split
      · exact congrArg mem (by omega)
      · rfl
  constructor
  · intro i hi
    rw [hmoved, if_pos (by omega), Nat.add_sub_cancel_left]
  · intro a ha
    rw [hmoved, if_neg]
    rintro ⟨hle, hlt⟩
    exact ha (a - d) (by omega) (by omega)

end

theorem memmove_exact_overlap : memmove 1 0 2 (fun a => UInt8.ofNat a) 2 = 1 :=
  (memmove_exact (by decide) (by decide) _).1 1 (by decide)

end AiosKernel.LibString
