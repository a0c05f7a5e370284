/-
# `AiosKernel.PlatformProbe` — the order in which devices are initialised

Model of `sort_devices_by_priority` in `kernel/drivers/platform_probe.c`.  The outer
loop fixes one place of the array at a time; the inner loop compares it with every
place behind and exchanges the two devices where the later one comes first.  So the
place ends up with a least priority of what was left (`exchange_spec`), and the whole
array is sorted.  The sort is not stable: devices of one priority may change places.
-/
import Mathlib.Data.List.Perm.Basic
import Mathlib.Order.Nat

namespace AiosKernel.PlatformProbe

open List

variable {Device : Type*} (initPriority : Device → Nat)

/-- The inner loop with the device `x` at the place `i`: what it leaves there, and behind it. -/
def exchange : Device → List Device → Device × List Device
  | x, [] => (x, [])
  | x, y :: ys =>
    if initPriority y < initPriority x then
      let r := exchange y ys
      (r.1, x :: r.2)
    else
      let r := exchange x ys
      (r.1, y :: r.2)

/-- `sort_devices_by_priority`, for a number of devices of which it compares the priorities. -/
def sortDevicesByPriority : Nat → List Device → List Device
  | count + 1, x :: xs =>
    let r := exchange initPriority x xs
    r.1 :: sortDevicesByPriority count r.2
  | _, xs => xs

theorem exchange_spec (x : Device) (ys : List Device) :
    (exchange initPriority x ys).1 :: (exchange initPriority x ys).2 ~ x :: ys ∧
      ∀ z ∈ x :: ys, initPriority (exchange initPriority x ys).1 ≤ initPriority z := by
  induction ys generalizing x with
  | nil => exact ⟨.refl _, forall_mem_singleton.mpr (Nat.le_refl _)⟩
  | cons y ys ih =>
    unfold exchange
    split
    · rename_i hlt
      obtain ⟨hperm, hle⟩ := ih y
      refine ⟨(Perm.swap x _ _).trans (hperm.cons x), forall_mem_cons.mpr ⟨?_, hle⟩⟩
      exact (hle y mem_cons_self).trans hlt.le
    · rename_i hge
      obtain ⟨hperm, hle⟩ := ih x
      obtain ⟨hx, hys⟩ := forall_mem_cons.mp hle
      refine ⟨(Perm.swap y _ _).trans ((hperm.cons y).trans (.swap x y ys)), ?_⟩
      exact forall_mem_cons.mpr ⟨hx, forall_mem_cons.mpr ⟨hx.trans (Nat.le_of_not_lt hge), hys⟩⟩

/-- **The sort leaves a permutation of the devices in the order of their priorities.** -/
theorem devices_sorted (devices : List Device) :
    sortDevicesByPriority initPriority devices.length devices ~ devices ∧
      (sortDevicesByPriority initPriority devices.length devices).Pairwise
        (initPriority · ≤ initPriority ·) := by
  induction hn : devices.length generalizing devices with
  | zero =>
    rw [length_eq_zero_iff.mp hn]
    exact ⟨.refl _, .nil⟩
  | succ n ih =>
    cases devices with
    | nil => cases hn
    | cons x xs =>
      obtain ⟨hperm, hle⟩ := exchange_spec initPriority x xs
      obtain ⟨hrest, hsorted⟩ := ih _ (Nat.succ.inj (hperm.length_eq.trans hn))
      refine ⟨(hrest.cons _).trans hperm, pairwise_cons.mpr ⟨fun z hz => ?_, hsorted⟩⟩
      exact hle z (hperm.mem_iff.mp (mem_cons_of_mem _ (hrest.mem_iff.mp hz)))

end AiosKernel.PlatformProbe
