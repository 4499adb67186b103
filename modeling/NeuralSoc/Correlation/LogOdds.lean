import NeuralSoc.Correlation.Risk
import Mathlib.Analysis.SpecialFunctions.Log.Basic

/-!
# The risk score with its logarithms

`calculate_risk_score` as it is written, with `math.log` and `math.exp`: the sum of the log-odds and one
over one plus an exponential, which overflows. An exact value stands for each float, `none` for NaN.
-/

namespace NeuralSoc.Correlation

/-- `math.exp(x)` -/
noncomputable def mathExp : Option ℝ → Except Exc (Option ℝ)
  | none => .ok none
  | some x => if 709.79 < x then .error ⟨.other, "math range error"⟩ else .ok (some (Real.exp x))

/-- `math.log(c / (1.0 - c))` of a clamped confidence -/
noncomputable def logOdds : PyFloat → Option ℝ
  | .fin c => some (Real.log ((c / (1 - c) : ℚ)))
  | _ => none

noncomputable def logOddsSum (confs : List PyFloat) : Option ℝ := (confs.mapM logOdds).map List.sum

noncomputable def calculateRiskScoreExp (rt : Runtime) (alerts : List Object) :
    Except Exc (Option ℝ) := do
  if alerts = [] then return some 0
  let best ← bestConfidences rt alerts []
  let e ← mathExp ((logOddsSum (best.map (·.2))).map fun s => -s)
  return e.map fun e => 1 / (1 + e) * 100

def InRange (rt : Runtime) (alerts : List Object) : Prop :=
  ∃ x, calculateRiskScoreExp rt alerts = .ok (some x) ∧ 0 ≤ x ∧ x ≤ 100

end NeuralSoc.Correlation
