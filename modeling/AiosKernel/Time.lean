/-
# `AiosKernel.Time` — the time source of `kernel/core/time.c`

The clock is the time-stamp counter scaled by a frequency calibrated against the
PIT.  A reading of the counter is an argument; all arithmetic is that of
`uint64_t`.  The scaling multiplies before it divides, so the value returned is
the exact number of nanoseconds only while the product fits in 64 bits:
`wrapped_div_lt` is the reason it is never exact after that.
-/
import AiosKernel.Lib.Word

namespace AiosKernel.Time

def PIT_FREQ_HZ : UInt32 := 1193182
def PIT_CALIBRATE_US : UInt32 := 10000

/-- The statics that the clock reads. -/
structure TimeState where
  tscKhz : UInt64
  invariantTsc : Bool
  tscBase : UInt64
  deriving DecidableEq, Repr

/-- The reload value of the calibration.  The product is taken in 32 bits, where it wraps. -/
def pitReload : UInt16 :=
  let reload := (PIT_FREQ_HZ * PIT_CALIBRATE_US / 1000000).toUInt16
  if reload < 1024 then 1024 else reload

/-- `calibrate_tsc_khz`, on the counter before and after the PIT ran down.  The result is the
frequency; the flag it stores is bit 8 of `edx`. -/
def calibrateTscKhz (tscStart tscEnd : UInt64) : UInt64 :=
  let elapsedCycles := tscEnd - tscStart
  let elapsedUs := pitReload.toUInt64 * 1000000 / PIT_FREQ_HZ.toUInt64
  let elapsedUs := if elapsedUs = 0 then PIT_CALIBRATE_US.toUInt64 else elapsedUs
  elapsedCycles * 1000 / elapsedUs

/-- `kernel_time_init`, on the three counter readings it takes and the `edx` of CPUID leaf
`0x80000007`. -/
def kernelTimeInit (edx : UInt32) (tscStart tscEnd tscBase : UInt64) : TimeState :=
  { tscKhz := calibrateTscKhz tscStart tscEnd
    invariantTsc := edx &&& 256 ≠ 0
    tscBase }

/-- `kernel_time_monotonic_ns`, on the counter reading it takes. -/
def kernelTimeMonotonicNs (s : TimeState) (tsc : UInt64) : UInt64 :=
  if s.tscKhz = 0 then 0
  else
    let deltaCycles := tsc - s.tscBase
    deltaCycles * 1000000 / s.tscKhz

def kernelTimeTscKhz (s : TimeState) : UInt64 := s.tscKhz

def kernelTimeInvariantTsc (s : TimeState) : Bool := s.invariantTsc

/-- The product `delta_cycles * 1000000` over the integers. -/
def scaledCycles (s : TimeState) (tsc : UInt64) : Nat := (tsc.toNat - s.tscBase.toNat) * 10 ^ 6

/-- What the clock is for: the nanoseconds since the base, rounded down. -/
def exactNs (s : TimeState) (tsc : UInt64) : Nat := scaledCycles s tsc / s.tscKhz.toNat

section

variable {s : TimeState} {tsc : UInt64}

theorem kernelTimeMonotonicNs_toNat (hk : 0 < s.tscKhz) (hb : s.tscBase ≤ tsc) :
    (kernelTimeMonotonicNs s tsc).toNat = scaledCycles s tsc % 2 ^ 64 / s.tscKhz.toNat := by
  have hk' : s.tscKhz ≠ 0 := by
    intro h
    rw [h] at hk
    exact absurd hk (by decide)
  rw [kernelTimeMonotonicNs, if_neg hk', UInt64.toNat_div, UInt64.toNat_mul,
    UInt64.toNat_sub_of_le _ _ hb]
  rfl

/-- Reducing a product that does not fit loses at least one unit of the quotient, because the
divisor is itself a 64-bit value. -/
theorem wrapped_div_lt {x k : Nat} (hx : 2 ^ 64 ≤ x) (hk : 0 < k) (hk' : k ≤ 2 ^ 64) :
    x % 2 ^ 64 / k < x / k := by
  have hle : x % 2 ^ 64 + k ≤ x := by omega
  calc x % 2 ^ 64 / k < x % 2 ^ 64 / k + 1 := Nat.lt_succ_self _
    _ = (x % 2 ^ 64 + k) / k := (Nat.add_div_right _ hk).symm
    _ ≤ x / k := Nat.div_le_div_right hle

/-- One value is exact just when its product fits. -/
theorem kernelTimeMonotonicNs_exact_iff (hk : 0 < s.tscKhz) (hb : s.tscBase ≤ tsc) :
    (kernelTimeMonotonicNs s tsc).toNat = exactNs s tsc ↔ scaledCycles s tsc < 2 ^ 64 := by
  rw [kernelTimeMonotonicNs_toNat hk hb, exactNs]
  constructor
  · intro heq
    by_contra hge
    exact absurd heq (Nat.ne_of_lt
      (wrapped_div_lt (Nat.le_of_not_lt hge) hk (Nat.le_of_lt s.tscKhz.toNat_lt)))
  · intro hlt
    rw [Nat.mod_eq_of_lt hlt]

theorem exactNs_mono {tsc' : UInt64} (h : tsc ≤ tsc') : exactNs s tsc ≤ exactNs s tsc' :=
  Nat.div_le_div_right (Nat.mul_le_mul_right _ (Nat.sub_le_sub_right h _))

/-- Over every calibrated clock and every non-decreasing sequence of readings from the base on,
the values returned are non-decreasing and exact just when no product of the sequence leaves
64 bits. -/
theorem monotonic_ns_exact_iff_fits (s : TimeState) (hk : 0 < s.tscKhz) (readings : List UInt64)
    (hsorted : readings.Pairwise (· ≤ ·)) (hbase : ∀ tsc ∈ readings, s.tscBase ≤ tsc) :
    ((readings.map (kernelTimeMonotonicNs s)).Pairwise (· ≤ ·) ∧
      ∀ tsc ∈ readings, (kernelTimeMonotonicNs s tsc).toNat = exactNs s tsc) ↔
      ∀ tsc ∈ readings, (tsc.toNat - s.tscBase.toNat) * 10 ^ 6 < 2 ^ 64 := by
  constructor
  · rintro ⟨-, hexact⟩ tsc htsc
    exact (kernelTimeMonotonicNs_exact_iff hk (hbase tsc htsc)).mp (hexact tsc htsc)
  · intro hfits
    have hexact : ∀ tsc ∈ readings, (kernelTimeMonotonicNs s tsc).toNat = exactNs s tsc :=
      fun tsc htsc => (kernelTimeMonotonicNs_exact_iff hk (hbase tsc htsc)).mpr (hfits tsc htsc)
    refine ⟨List.pairwise_map.mpr (hsorted.imp_of_mem fun {a b} ha hb hab => ?_), hexact⟩
    rw [UInt64.le_iff_toNat_le, hexact a ha, hexact b hb]
    exact exactNs_mono hab

end

/-- A 3 GHz machine, as the calibration finds it. -/
def threeGhz : TimeState := kernelTimeInit 256 0 8400000 8400000

/-- One hour and forty-two minutes after boot the clock of a 3 GHz machine goes back to zero. -/
theorem clock_falls_back :
    0 < threeGhz.tscKhz ∧
      threeGhz.tscBase ≤ 18446752473709 ∧ (18446752473709 : UInt64) ≤ 18446752473710 ∧
      kernelTimeMonotonicNs threeGhz 18446752473709 = 6148914691236 ∧
      kernelTimeMonotonicNs threeGhz 18446752473710 = 0 ∧
      exactNs threeGhz 18446752473710 = 6148914691236 := by
  decide +kernel

/-- Within the first hour the same machine's clock is exact. -/
theorem monotonic_ns_exact_first_hour :
    ([8400000, 3008400000, 10800008400000].map (kernelTimeMonotonicNs threeGhz)).Pairwise (· ≤ ·) ∧
      ∀ tsc ∈ ([8400000, 3008400000, 10800008400000] : List UInt64),
        (kernelTimeMonotonicNs threeGhz tsc).toNat = exactNs threeGhz tsc := by
  refine (monotonic_ns_exact_iff_fits threeGhz (by decide +kernel) _ (by decide +kernel) ?_).mpr ?_
  all_goals
    -- one reading at a time: the quantifier itself would be decided over all of `UInt64`
    simp only [List.forall_mem_cons, List.not_mem_nil, false_imp_iff, implies_true, and_true]
    decide +kernel

end AiosKernel.Time
