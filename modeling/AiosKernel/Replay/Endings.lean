/-
# `AiosKernel.Replay.Endings` — the line endings of a trace

`_phase_raw` takes off a carriage return before a line feed.  What later phases
see of a trace is the same with carriage returns as without.  They count in the
size of the file only: a line is measured when its ending is off.
-/
import AiosKernel.Replay.Runs

namespace AiosKernel.Replay

open Py List

/-- Every line feed becomes a carriage return and a line feed. -/
def toCrlf (raw : List UInt8) : List UInt8 := raw.flatMap fun b => if b = 10 then [13, 10] else [b]

variable {raw : List UInt8}

theorem length_toCrlf : (toCrlf raw).length = raw.length + raw.count 10 := by
  induction raw with
  | nil => rfl
  | cons b raw ih =>
    rw [toCrlf, flatMap_cons, length_append, ← toCrlf, ih, count_cons]
    by_cases hb : b = 10
    · simp [hb]
      omega
    · simp [hb]
      omega

theorem getLast_toCrlf : ((toCrlf raw).getLast? == some 10) = (raw.getLast? == some 10) := by
  rcases eq_nil_or_concat raw with rfl | ⟨raw, b, rfl⟩
  · rfl
  · by_cases hb : b = 10 <;> simp [toCrlf, hb]

theorem split_toCrlf (h : 13 ∉ raw) : ∃ lines last, split 10 raw = lines ++ [last] ∧
    split 10 (toCrlf raw) = lines.map (· ++ [13]) ++ [last] ∧ ∀ line ∈ lines, 13 ∉ line := by
  induction raw with
  | nil => exact ⟨[], [], rfl, rfl, by simp⟩
  | cons b raw ih =>
    rw [mem_cons, not_or] at h
    obtain ⟨lines, last, hsplit, hcrlf, hlines⟩ := ih h.2
    have hcons : toCrlf (b :: raw) = (if b = 10 then [13, 10] else [b]) ++ toCrlf raw := rfl
    rw [hcons]
    by_cases hb : b = 10
    · refine ⟨[] :: lines, last, ?_, ?_, ?_⟩
      · simp [split, hb, hsplit]
      · simp [split, hb, hcrlf]
      · simpa using hlines
    · cases lines with
      | nil =>
        refine ⟨[], b :: last, ?_, ?_, hlines⟩
        · simp [split, hb, hsplit]
        · simp [split, hb, hcrlf]
      | cons line lines =>
        refine ⟨(b :: line) :: lines, last, ?_, ?_, ?_⟩
        · simp [split, hb, hsplit]
        · simp [split, hb, hcrlf]
        · simp_all [Ne.symm]

theorem stripLineEnding_crlf {line : List UInt8} (h : 13 ∉ line) (index : Nat) :
    stripLineEnding true index (line ++ [13]) = stripLineEnding true index line := by
  have hlast : line.getLast? ≠ some 13 := fun hlast => h (mem_of_getLast? hlast)
  simp +decide [stripLineEnding, h, hlast]

theorem contentsOf_toCrlf (h : 13 ∉ raw) : contentsOf (toCrlf raw) = contentsOf raw := by
  obtain ⟨lines, last, hsplit, hcrlf, hlines⟩ := split_toCrlf h
  unfold contentsOf rawLines
  rw [getLast_toCrlf, hsplit, hcrlf]
  cases raw.getLast? == some 10 with
  | true =>
    simp only [if_true, dropLast_concat, Bool.true_or, zipIdx_map, map_map]
    refine map_congr_left fun x hx => ?_
    exact stripLineEnding_crlf (hlines _ (fst_mem_of_mem_zipIdx hx)) _
  | false =>
    simp only [Bool.false_eq_true, if_false, Bool.false_or, length_append, length_map,
      zipIdx_append, map_append, zipIdx_map, map_map]
    congr 1
    refine map_congr_left fun x hx => ?_
    have hterminated : decide (x.2 < lines.length + [last].length - 1) = true := by
      simpa using snd_lt_of_mem_zipIdx hx
    simp only [Function.comp, Prod.map, id, hterminated]
    exact stripLineEnding_crlf (hlines _ (fst_mem_of_mem_zipIdx hx)) _

/-- **A trace without carriage returns has the same verdict with them.** -/
theorem verdict_toCrlf (interp : Interpreter) (raw : List UInt8) (hcr : 13 ∉ raw)
    (hfits : raw.length + raw.count 10 ≤ MAX_TOTAL_BYTES) :
    verifyTraceBytes interp (toCrlf raw) = verifyTraceBytes interp raw := by
  have hraw : phaseRaw (toCrlf raw) = phaseRaw raw := by
    have hempty : (toCrlf raw).isEmpty = raw.isEmpty := by
      cases raw with
      | nil => rfl
      | cons b raw => by_cases hb : b = 10 <;> simp [toCrlf, hb]
    unfold phaseRaw
    rw [hempty, length_toCrlf, if_neg hfits.not_gt, contentsOf_toCrlf hcr, getLast_toCrlf,
      if_neg ((Nat.le_add_right _ _).trans hfits).not_gt]
  unfold verifyTraceBytes recordsOf earlyFailures
  rw [hraw]

/-- The trace with stale events passes with carriage returns too. -/
theorem verdict_toCrlf_stale : ∃ v, verifyTraceBytes plainInterpreter
    (toCrlf (encodeTrace (lit "trace") staleTrace)) = .ok v ∧ v.passed = true := by
  obtain ⟨v, hv, hpassed⟩ := staleTrace_passes plainInterpreter
  refine ⟨v, ?_, hpassed⟩
  rw [verdict_toCrlf _ _ (by decide +kernel) (by decide +kernel), hv]

end AiosKernel.Replay
