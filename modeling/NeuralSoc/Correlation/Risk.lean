import NeuralSoc.Base.Value
import Mathlib.Algebra.Order.Field.Rat

/-!
# The risk score of a group of alerts

`inference/risk.py` in exact arithmetic: with `odds c = c / (1 - c)` the pooled log-odds are the
logarithm of the product `P` of the detectors' best odds, and `1 / (1 + exp (-log P)) = P / (1 + P)`.
The final rounding to two digits is left out.
-/

namespace NeuralSoc.Correlation

/-- `_SEVERITY_TO_CONFIDENCE.get(severity, 0.55)`. -/
def severityToConfidence (severity : String) : ℚ :=
  if severity = "critical" then 97 / 100
  else if severity = "high" then 9 / 10
  else if severity = "medium" then 3 / 4
  else 11 / 20

/-- `float(conf)`; a `TypeError` or `ValueError` counts as 0.55. -/
def toConfidence (rt : Runtime) (conf : Json) : Except Exc PyFloat :=
  match toFloat rt conf with
  | .ok x => .ok x
  | .error e =>
      if e.cls = .typeError || e.cls = .valueError then .ok (.fin (11 / 20)) else .error e

def clamp (conf : PyFloat) : PyFloat := (conf.max (.fin (1 / 100))).min (.fin (99 / 100))

-- The number a value is to `==`.
def numeric? : Json → Option PyFloat
  | .bool b => some (.fin (if b then 1 else 0))
  | .int i => some (.fin i)
  | .float x => some x
  | _ => none

/-- The test of a dict or a set: numbers of equal value are one key, and `json.loads` returns one
NaN object, which is identical to itself. -/
def sameKey (a b : Json) : Bool :=
  match numeric? a, numeric? b with
  | some x, some y => x == y
  | _, _ => a == b

def hashable : Json → Bool
  | .arr _ | .obj _ => false
  | _ => true

-- `best[detector] = conf` when the detector is new or `conf` is greater.
def keepBest (detector : Json) (conf : PyFloat) : List (Json × PyFloat) → List (Json × PyFloat)
  | [] => [(detector, conf)]
  | (d, c) :: rest =>
      if sameKey detector d then (d, if c.lt conf then conf else c) :: rest
      else (d, c) :: keepBest detector conf rest

def detectorOf (a : Object) : Json :=
  (((a.get "model_name").or (a.get "rule_id")).or (a.get "threat_class")).or (.str "unknown")

def confidenceOf (rt : Runtime) (a : Object) : Except Exc PyFloat :=
  let conf := a.getD "confidence_score" (a.get "confidence")
  let conf := if conf = .null then
      .float (.fin (severityToConfidence (rt.lower (rt.str (a.getD "severity" (.str "low"))))))
    else conf
  (toConfidence rt conf).map clamp

def bestConfidences (rt : Runtime) :
    List Object → List (Json × PyFloat) → Except Exc (List (Json × PyFloat))
  | [], best => .ok best
  | a :: alerts, best => do
      let conf ← confidenceOf rt a
      if !hashable (detectorOf a) then throw ⟨.typeError, "unhashable type"⟩
      bestConfidences rt alerts (keepBest (detectorOf a) conf best)

def odds : PyFloat → PyFloat
  | .fin c => .fin (c / (1 - c))
  | x => x

-- NaN as soon as one of the odds is.
def oddsProduct (confs : List PyFloat) : PyFloat :=
  confs.foldr (fun c p => match odds c, p with
    | .fin a, .fin b => .fin (a * b)
    | _, _ => .nan) (.fin 1)

def calculateRiskScore (rt : Runtime) (alerts : List Object) : Except Exc PyFloat := do
  if alerts = [] then return .fin 0
  let best ← bestConfidences rt alerts []
  match oddsProduct (best.map (·.2)) with
  | .fin p => return .fin (100 * (p / (1 + p)))
  | x => return x

end NeuralSoc.Correlation
