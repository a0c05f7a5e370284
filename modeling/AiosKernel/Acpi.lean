/-
# `AiosKernel.Acpi` — the tags of the boot loader

The walk of `acpi_init` in `kernel/core/acpi.c` over the multiboot information,
for an arbitrary content of the physical memory.  It adds a size that the boot
loader wrote, rounded up in 32 bits, and stands still where that is 0.  So the
walk ends just for those contents in which it comes to no such tag; with fuel for
the bytes of the block, `diverge` means that the loop does not end.
-/
import AiosKernel.Types
import AiosKernel.Lib.Word
import Mathlib.Logic.Relation
import Mathlib.Tactic.TFAE

namespace AiosKernel.Acpi

open Word

/-- The bytes of the physical memory. -/
abbrev Mem := Nat → UInt8

/-- The little-endian number in the `n` bytes from `a` on. -/
def le (mem : Mem) (a : Nat) : Nat → Nat
  | 0 => 0
  | n + 1 => (mem a).toNat + 2 ^ 8 * le mem (a + 1) n

theorem le_lt (mem : Mem) (a n : Nat) : le mem a n < 2 ^ (8 * n) := by
  induction n generalizing a with
  | zero => exact Nat.one_pos
  | succ n ih =>
    have hbyte : (mem a).toNat < 2 ^ 8 := (mem a).toNat_lt
    have hrest := ih (a + 1)
    rw [le, Nat.mul_succ, Nat.pow_add]
    omega

/-- `ALIGN_UP(size, 8)` of a `uint32_t`. -/
def alignUp (size : Nat) : Nat := u32 (size + 7) &&& (2 ^ 32 - 2 ^ 3)

/-- The type and the size of the tag at `c`. -/
def tagType (mem : Mem) (c : Nat) : Nat := le mem c 4
def tagSize (mem : Mem) (c : Nat) : Nat := le mem (c + 4) 4

/-- The loop of `acpi_init` over the tags; `none` means that none is chosen. -/
def tagWalk (mem : Mem) (limit : Nat) : Nat → Nat → Option Nat → Outcome (Option Nat)
  | 0, _, _ => .diverge
  | fuel + 1, c, chosen =>
    if limit < c + 8 then .done chosen
    else if tagType mem c = 0 then .done chosen
    else if tagSize mem c < 8 then .done chosen
    else if tagType mem c = 15 then .done (some c)
    else tagWalk mem limit fuel (c + alignUp (tagSize mem c))
      (if tagType mem c = 14 ∧ chosen = none then some c else chosen)

/-- The walk does not leave the loop at `c`. -/
def GoesOn (mem : Mem) (limit c : Nat) : Prop :=
  c + 8 ≤ limit ∧ tagType mem c ≠ 0 ∧ 8 ≤ tagSize mem c ∧ tagType mem c ≠ 15

instance (mem : Mem) (limit c : Nat) : Decidable (GoesOn mem limit c) :=
  inferInstanceAs (Decidable (_ ∧ _))

/-- The walk comes from `c` to `d` in one turn. -/
def Turn (mem : Mem) (limit c d : Nat) : Prop :=
  GoesOn mem limit c ∧ d = c + alignUp (tagSize mem c)

variable {mem : Mem} {limit c : Nat} {chosen : Option Nat}

theorem tagWalk_goesOn (h : GoesOn mem limit c) (fuel : Nat) :
    tagWalk mem limit (fuel + 1) c chosen = tagWalk mem limit fuel (c + alignUp (tagSize mem c))
      (if tagType mem c = 14 ∧ chosen = none then some c else chosen) := by
  obtain ⟨hfits, hend, hsize, hnew⟩ := h
  rw [tagWalk, if_neg (by omega), if_neg hend, if_neg (by omega), if_neg hnew]

theorem tagWalk_leaves (h : ¬GoesOn mem limit c) (fuel : Nat) :
    ∃ r, tagWalk mem limit (fuel + 1) c chosen = .done r := by
  unfold tagWalk
  iterate 4
    split
    · exact ⟨_, rfl⟩
  · rename_i hfits hend hsize hnew
    exact absurd ⟨by omega, hend, by omega, hnew⟩ h

/-- The rounded size is 0 for the seven greatest sizes only. -/
theorem alignUp_pos_iff {size : Nat} (hlow : 8 ≤ size) (hhigh : size < 2 ^ 32) :
    0 < alignUp size ↔ size ≤ 0xFFFFFFF8 := by
  rw [alignUp, land_mask _ (by decide), u32]
  omega

theorem tagWalk_ends (h : ∀ d, Relation.ReflTransGen (Turn mem limit) c d → GoesOn mem limit d →
      0 < alignUp (tagSize mem d)) :
    ∀ {fuel : Nat}, limit - c < fuel → ∃ r, tagWalk mem limit fuel c chosen = .done r := by
  intro fuel
  induction fuel generalizing c chosen with
  | zero => exact fun hfuel => absurd hfuel (Nat.not_lt_zero _)
  | succ fuel ih =>
    intro hfuel
    by_cases hgo : GoesOn mem limit c
    · rw [tagWalk_goesOn hgo]
      have hpos := h c .refl hgo
      have hfits := hgo.1
      refine ih (fun d hd => h d (hd.head ⟨hgo, rfl⟩)) (by omega)
    · exact tagWalk_leaves hgo fuel

theorem tagWalk_advances {fuel : Nat} {r : Option Nat}
    (h : tagWalk mem limit fuel c chosen = .done r) :
    ∀ d, Relation.ReflTransGen (Turn mem limit) c d → GoesOn mem limit d →
      0 < alignUp (tagSize mem d) := by
  induction fuel generalizing c chosen with
  | zero => cases h
  | succ fuel ih =>
    intro d hd hgo
    rcases hd.cases_head with rfl | ⟨e, ⟨hgo', rfl⟩, hd⟩
    · rw [tagWalk_goesOn hgo] at h
      by_contra hzero
      rw [Nat.eq_zero_of_not_pos hzero, Nat.add_zero] at h
      exact hzero (ih h c .refl hgo)
    · rw [tagWalk_goesOn hgo'] at h
      exact ih h d hd hgo

/-- The cursor comes to `c` in the walk over the block at `info`. -/
def Reaches (mem : Mem) (info c : Nat) : Prop :=
  Relation.ReflTransGen (Turn mem (info + le mem info 4)) (info + 8) c

/-- **The walk over the tags ends, each turn advances the cursor, and no tag it goes on from has one
of the seven greatest sizes: all three or none.** -/
theorem tag_walk_ends_iff (mem : Mem) (info : Nat) :
    [∃ fuel r, tagWalk mem (info + le mem info 4) fuel (info + 8) none = .done r,
      ∀ c d, Reaches mem info c → Turn mem (info + le mem info 4) c d → c < d,
      ∀ c, Reaches mem info c → GoesOn mem (info + le mem info 4) c →
        tagSize mem c ≤ 0xFFFFFFF8].TFAE := by
  tfae_have 1 → 2 := by
    rintro ⟨fuel, r, hr⟩ c d hreach ⟨hgo, rfl⟩
    exact Nat.lt_add_of_pos_right (tagWalk_advances hr c hreach hgo)
  tfae_have 2 → 3 := by
    intro hadvances c hreach hgo
    have hlt := hadvances c _ hreach ⟨hgo, rfl⟩
    exact (alignUp_pos_iff hgo.2.2.1 (le_lt _ _ _)).mp (by omega)
  tfae_have 3 → 1 := by
    intro hsizes
    refine ⟨_, tagWalk_ends (fun c hreach hgo => ?_) (Nat.lt_succ_self _)⟩
    exact (alignUp_pos_iff hgo.2.2.1 (le_lt _ _ _)).mpr (hsizes c hreach hgo)
  tfae_finish

/-- A tag that says it has `0xFFFFFFF9` bytes: the walk never ends. -/
theorem tag_walk_stands_still : ∃ mem : Mem, ∀ fuel r,
    tagWalk mem (0x7000 + le mem 0x7000 4) fuel (0x7000 + 8) none ≠ .done r := by
  refine ⟨fun a => ([24, 0, 0, 0, 0, 0, 0, 0, 1, 0, 0, 0, 0xF9, 0xFF, 0xFF, 0xFF] : List UInt8).getD
    (a - 0x7000) 0, fun fuel r h => ?_⟩
  exact absurd (tagWalk_advances h _ .refl (by decide)) (by decide)

end AiosKernel.Acpi
