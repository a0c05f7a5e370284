/-
# `AiosKernel.Slm.Scores` — the two scores of a submitted plan

`slm_plan_submit` scores a plan in `int32_t`, from a risk level that the user
gives as a `uint32_t`.  Up to about `2 ^ 28` everything fits, and a higher risk
never scores better.  From there on a product or a difference overflows, until
the risk level comes out negative: then nothing overflows, but the risk is added
to the scores.
-/
import AiosKernel.Slm.Plans

namespace AiosKernel.Slm

open Word Slots

def FitsI32 (v : Int) : Prop := -2 ^ 31 ≤ v ∧ v < 2 ^ 31

instance (v : Int) : Decidable (FitsI32 v) := inferInstanceAs (Decidable (_ ∧ _))

theorem clampU8_le (v : Int) : clampU8 v ≤ 100 := by
  simp only [clampU8, clamp]
  split_ifs <;> omega

theorem clampU8_eq {v : Int} (h : FitsI32 v) : (clampU8 v : Int) = max 0 (min v 100) := by
  have hexact : i32 v = v := Int.bmod_eq_of_le h.1 h.2
  simp only [clampU8, clamp, hexact]
  split_ifs <;> omega

theorem clampU8_congr {v w : Int} (h : v % 2 ^ 32 = w % 2 ^ 32) : clampU8 v = clampU8 w := by
  simp only [clampU8, clamp, i32, Int.bmod_def, show ((2 ^ 32 : Nat) : Int) = 2 ^ 32 from rfl, h]

section

variable (m : Machine) (s : State) (req : PlanRequest) (risk : Nat)

/-- What `compute_plan_confidence` starts from, before the risk counts. -/
def confidenceBase : Int :=
  (match s.learning.actions[req.action.number]? with
    | some e => (e.confidence : Int)
    | none => 50) + ((s.learning.globalConfidence : Int) - 50).tdiv 2

/-- What is added to the validation score of a plan that asks to be applied. -/
def applyBonus : Int := if req.allowApply then 5 else 0

/-- The plan that `slm_plan_submit` enters for the request at this risk level. -/
def planAtRisk : Plan := submittedPlan m 0 { req with riskLevel := risk } s

/-- The values of type `int32_t` that depend on the risk level, in the order of their
computation. -/
def scoreSteps : List Int :=
  [i32 risk * 8, confidenceBase s req - i32 risk * 8,
    confidenceBase s req - i32 risk * 8 + s.learning.ioAggressivenessBias * 4,
    i32 risk * 5, applyBonus req - i32 risk * 5,
    (planAtRisk m s req risk).expectedConfidence + (applyBonus req - i32 risk * 5)]

/-- The scores at this risk are computed exactly, lie in range, and are not above those at a lower
risk. -/
structure ScoresSound : Prop where
  exact : ∀ v ∈ scoreSteps m s req risk, FitsI32 v
  confidence : (planAtRisk m s req risk).expectedConfidence ≤ 100
  score : (planAtRisk m s req risk).validationScore ≤ 100
  antitone : ∀ low ≤ risk,
    (planAtRisk m s req risk).expectedConfidence ≤ (planAtRisk m s req low).expectedConfidence ∧
    (planAtRisk m s req risk).validationScore ≤ (planAtRisk m s req low).validationScore

theorem planAtRisk_confidence : (planAtRisk m s req risk).expectedConfidence =
    if !planTargetPresent m req && req.template != .discovery then clampU8 0
    else clampU8 (confidenceBase s req - risk * 8 + s.learning.ioAggressivenessBias * 4) := rfl

theorem planAtRisk_score : (planAtRisk m s req risk).validationScore =
    clampU8 ((planAtRisk m s req risk).expectedConfidence + (applyBonus req - risk * 5)) := rfl

theorem planAtRisk_confidence_le : (planAtRisk m s req risk).expectedConfidence ≤ 100 := by
  rw [planAtRisk_confidence]
  split
  · exact clampU8_le _
  · exact clampU8_le _

theorem applyBonus_bounds : 0 ≤ applyBonus req ∧ applyBonus req ≤ 5 := by
  unfold applyBonus
  split <;> omega

end

/-- The fields have the ranges of their types. -/
structure Learning.Typed (l : Learning) : Prop where
  entries : ∀ e ∈ l.actions, e.confidence < 2 ^ 8
  globalConfidence : l.globalConfidence < 2 ^ 8
  biasLow : -2 ^ 7 ≤ l.ioAggressivenessBias
  biasHigh : l.ioAggressivenessBias < 2 ^ 7

section

variable {m : Machine} {s : State} {req : PlanRequest} {risk : Nat} (ht : s.learning.Typed)
include ht

theorem confidenceBase_bounds (req : PlanRequest) :
    -25 ≤ confidenceBase s req ∧ confidenceBase s req < 2 ^ 9 := by
  have hglobal := ht.globalConfidence
  have hlow : (-50 : Int).tdiv 2 ≤ ((s.learning.globalConfidence : Int) - 50).tdiv 2 :=
    Int.tdiv_le_tdiv (by decide) (by omega)
  have hhigh : ((s.learning.globalConfidence : Int) - 50).tdiv 2 ≤ (205 : Int).tdiv 2 :=
    Int.tdiv_le_tdiv (by decide) (by omega)
  rw [show (-50 : Int).tdiv 2 = -25 by decide] at hlow
  rw [show (205 : Int).tdiv 2 = 102 by decide] at hhigh
  unfold confidenceBase
  split
  · rename_i e he
    have hentry := ht.entries e (List.mem_of_getElem? he)
    omega
  · omega

theorem planAtRisk_antitone {low : Nat} (hle : low ≤ risk) (hlt : risk < 2 ^ 28)
    (hfits : -2 ^ 31 ≤ confidenceBase s req - risk * 8 + s.learning.ioAggressivenessBias * 4) :
    (planAtRisk m s req risk).expectedConfidence ≤ (planAtRisk m s req low).expectedConfidence ∧
    (planAtRisk m s req risk).validationScore ≤ (planAtRisk m s req low).validationScore := by
  have hbase := confidenceBase_bounds ht req
  have hbias := ht.biasHigh
  have hbonus := applyBonus_bounds req
  have hmono {v w : Int} (hv : FitsI32 v) (hw : FitsI32 w) (h : v ≤ w) : clampU8 v ≤ clampU8 w := by
    have hcv := clampU8_eq hv
    have hcw := clampU8_eq hw
    omega
  have hconf : (planAtRisk m s req risk).expectedConfidence ≤
      (planAtRisk m s req low).expectedConfidence := by
    rw [planAtRisk_confidence, planAtRisk_confidence]
    split
    · exact Nat.le_refl _
    · exact hmono ⟨hfits, by omega⟩ ⟨by omega, by omega⟩ (by omega)
  have hhundred := planAtRisk_confidence_le m s req low
  refine ⟨hconf, ?_⟩
  rw [planAtRisk_score, planAtRisk_score]
  exact hmono ⟨by omega, by omega⟩ ⟨by omega, by omega⟩ (by omega)

/-- **The scores of a plan are right exactly up to a risk level that the state decides.** -/
theorem scores_sound_iff (hrisk : risk < 2 ^ 32) : ScoresSound m s req risk ↔
    risk < 2 ^ 28 ∧ -2 ^ 31 ≤ confidenceBase s req - risk * 8 ∧
      -2 ^ 31 ≤ confidenceBase s req - risk * 8 + s.learning.ioAggressivenessBias * 4 := by
  have hbase := confidenceBase_bounds ht req
  have hbonus := applyBonus_bounds req
  have hconf := planAtRisk_confidence_le m s req risk
  constructor
  · intro h
    have hsteps := h.exact
    simp only [scoreSteps, List.forall_mem_cons] at hsteps
    obtain ⟨height, hfirst, hsecond, -, -, hlast, -⟩ := hsteps
    by_cases hsign : risk < 2 ^ 31
    · have hexact : i32 risk = risk := Int.bmod_eq_of_le (by omega) (by omega)
      rw [hexact] at height hfirst hsecond
      have hlt := height.2
      exact ⟨by omega, hfirst.1, hsecond.1⟩
    · -- the risk level comes out negative, and the plan scores better than at risk 100
      have hneg : i32 risk = risk - 2 ^ 32 := by
        rw [i32, Int.bmod_def]
        omega
      rw [hneg] at hlast
      have hhundred := planAtRisk_confidence_le m s req 100
      have hle := (h.antitone 100 (by omega)).2
      rw [planAtRisk_score, planAtRisk_score, clampU8_congr
        (w := (planAtRisk m s req risk).expectedConfidence + (applyBonus req - (risk - 2 ^ 32) * 5))
        (by omega)] at hle
      have hhigh := clampU8_eq hlast
      have hzero := clampU8_eq (v := (planAtRisk m s req 100).expectedConfidence +
        (applyBonus req - (100 : Nat) * 5)) ⟨by omega, by omega⟩
      omega
  · rintro ⟨hlt, hfirst, hsecond⟩
    have hexact : i32 risk = risk := Int.bmod_eq_of_le (by omega) (by omega)
    refine ⟨?_, hconf, clampU8_le _, fun low hle => planAtRisk_antitone ht hle hlt hsecond⟩
    have hbias := ht.biasHigh
    simp only [scoreSteps, hexact, List.forall_mem_cons, FitsI32]
    refine ⟨?_, ?_, ?_, ?_, ?_, ?_, List.forall_mem_nil _⟩ <;> omega

end

theorem booted_typed : booted.learning.Typed := ⟨by decide, by decide, by decide, by decide⟩

theorem scores_sound_restart : ScoresSound workstation booted restartStorage 3 :=
  (scores_sound_iff booted_typed (by decide)).mpr (by decide)

/-- The highest risk level scores better than risk 3, and `2 ^ 28` overflows. -/
theorem high_risk_scores_higher :
    (planAtRisk workstation booted restartStorage 3).validationScore <
        (planAtRisk workstation booted restartStorage (2 ^ 32 - 1)).validationScore ∧
      ∃ v ∈ scoreSteps workstation booted restartStorage (2 ^ 28), ¬FitsI32 v := by
  decide

end AiosKernel.Slm
