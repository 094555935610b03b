import Mathlib.Analysis.SpecialFunctions.Pow.Real
import Lyte.Domain.Canonical
import Lyte.Domain.Scope

/-
  Lyte.Domain.Formulas — the weighted geometric advisory, over exact reals.

  `lambdaAdvisory` and `weightedGeometricMean` are two implementations of one
  score; `journeyHealth` passes the first on under another name.  `math.log`
  raises ValueError on zero; `math.exp` of an exact number does not overflow.
-/

namespace Lyte

noncomputable section

/-! ## §1. Results. -/

/-- `FormulaResult`, with the inputs that the advisory records. -/
structure FormulaResult where
  name : PyStr
  value : Option ℝ
  truthLabel : TruthLabel
  expression : PyStr
  unit : PyStr
  axes : List (PyStr × Option ℝ)
  weights : List (PyStr × ℝ)
  reason : Option PyStr
  proofStatus : PyStr

def trustCeiling : ℝ := 0.97

def lambdaExpression : PyStr := py "min(0.97, exp(sum(normalized_weight * ln(axis))))"

/-- `_unavailable`, of the advisory. -/
def unavailableAdvisory (axes : List (PyStr × Option ℝ)) (missing : List PyStr) : FormulaResult where
  name := py "lambda_advisory"
  value := none
  truthLabel := .unavailable
  expression := lambdaExpression
  unit := py "dimensionless"
  axes := axes
  weights := []
  reason := some (py "missing required input(s): " ++
    (py ", ").intercalate (missing.mergeSort (fun a b => strLe a b)))
  proofStatus := py "CONJECTURE_1_ADVISORY"

/-! ## §2. What the two implementations share. -/

/-- `_finite` and `finite_float` with a minimum of zero. -/
def atLeastZero (value : ℝ) (name : PyStr) : Except Exn ℝ :=
  if value < 0 then .error (.valueError (name ++ py " must be at least 0.0")) else .ok value

/-- `math.log`. -/
def pyLog (x : ℝ) : Except Exn ℝ :=
  if x ≤ 0 then .error (.valueError (py "math domain error")) else .ok (Real.log x)

/-- `set(weights) == set(names)`. -/
def sameNames (weights : List (PyStr × ℝ)) (names : List PyStr) : Bool :=
  weights.all (fun w => names.contains w.1) && names.all (fun n => (weights.lookup n).isSome)

/-- `raw_weights[name]`. -/
def rawWeight (weights : List (PyStr × ℝ)) (name : PyStr) : ℝ := (weights.lookup name).getD 0

/-- The normalized weights of the axes, as the function that the dict is. -/
def normalizeWeights (mismatch : PyStr) (names : List PyStr) (weights : Option (List (PyStr × ℝ))) :
    Except Exn (PyStr → ℝ) :=
  match weights with
  | none => .ok (fun _ => 1 / names.length)
  | some weights =>
      if !sameNames weights names then .error (.valueError mismatch)
      else do
        let raw ← names.mapM (fun n => atLeastZero (rawWeight weights n) (py "weight." ++ n))
        let total := raw.sum
        if total ≤ 0 then throw (.valueError (py "weight sum must be positive"))
        else return fun n => rawWeight weights n / total

/-- A positively weighted axis is zero. -/
def zeroAxis (pairs : List (ℝ × ℝ)) : Prop := ∃ p ∈ pairs, p.1 = 0 ∧ 0 < p.2

/-! ## §3. `lambda_advisory`. -/

/-- The loop over the axes, which collects the numbers and the names that have none. -/
def cleanAxes : List (PyStr × Option ℝ) → List (PyStr × ℝ) → List PyStr →
    Except Exn (List (PyStr × ℝ) × List PyStr)
  | [], clean, missing => .ok (clean, missing)
  | (rawName, rawValue) :: axes, clean, missing =>
      let name := strip rawName
      if name.isEmpty then .error (.valueError (py "axis names cannot be empty"))
      else if clean.any (fun a => a.1 == name) || missing.contains name then
        .error (.valueError (py "duplicate normalized axis name: " ++ name))
      else match rawValue with
        | none => cleanAxes axes clean (missing ++ [name])
        | some value => do
            let number ← atLeastZero value (py "axis." ++ name)
            if 1 < number then
              throw (.valueError (py "axis." ++ name ++ py " must be at most 1"))
            cleanAxes axes (clean ++ [(name, number)]) missing

open Classical in
/-- The score of axes with their weights: zero, or the exponential of the mean logarithm. -/
def lambdaScore (pairs : List (ℝ × ℝ)) : Except Exn ℝ :=
  if zeroAxis pairs then .ok 0
  else do
    let terms ← pairs.mapM (fun p => do return p.2 * (← pyLog p.1))
    return Real.exp terms.sum

/-- `lambda_advisory`. -/
def lambdaAdvisory (axes : List (PyStr × Option ℝ)) (weights : Option (List (PyStr × ℝ))) :
    Except Exn FormulaResult :=
  if axes.isEmpty then .ok (unavailableAdvisory [] [py "at least one axis"])
  else do
    let (clean, missing) ← cleanAxes axes [] []
    let inputs := axes.map (fun a => (strip a.1, clean.lookup (strip a.1)))
    if !missing.isEmpty then return unavailableAdvisory inputs (missing.map (py "axis." ++ ·))
    let normalized ← normalizeWeights (py "weights must name exactly the supplied axes")
      (clean.map Prod.fst) weights
    let score ← lambdaScore (clean.map (fun a => (a.2, normalized a.1)))
    return {
      name := py "lambda_advisory"
      value := some (min trustCeiling score)
      truthLabel := .modeled
      expression := lambdaExpression
      unit := py "score"
      axes := inputs
      weights := clean.map (fun a => (a.1, normalized a.1))
      reason := none
      proofStatus := py "CONJECTURE_1_ADVISORY" }

/-- `journey_health`. -/
def journeyHealth (stageAttainment : List (PyStr × Option ℝ))
    (weights : Option (List (PyStr × ℝ))) : Except Exn FormulaResult := do
  let advisory ← lambdaAdvisory stageAttainment weights
  return { advisory with
    name := py "journey_health"
    unit := py "score"
    proofStatus := py "DECLARED_WEIGHTED_COMPOSITION" }

/-! ## §4. `weighted_geometric_mean`. -/

def clamp01 (value : ℝ) : ℝ := min 1 (max 0 value)

open Classical in
/-- The score of the engine: axes are floored before the logarithm. -/
def engineScore (pairs : List (ℝ × ℝ)) : Except Exn ℝ :=
  if zeroAxis pairs then .ok 0
  else do
    let terms ← pairs.mapM (fun p => do return p.2 * (← pyLog (max p.1 (10 ^ (-15 : ℤ)))))
    return Real.exp terms.sum

/-- The floor of the engine's axes. -/
def axisFloor : ℝ := 10 ^ (-15 : ℤ)

/-- `weighted_geometric_mean`: its score before the final rounding. -/
def weightedGeometricMean (axes : List (PyStr × ℝ)) (weights : Option (List (PyStr × ℝ))) :
    Except Exn ℝ :=
  if axes.isEmpty then .error (.valueError (py "at least one axis is required"))
  else do
    let clean := axes.map (fun a => (a.1, clamp01 a.2))
    let normalized ← normalizeWeights (py "weights must name the same axes") (clean.map Prod.fst)
      weights
    let score ← engineScore (clean.map (fun a => (a.2, normalized a.1)))
    return min trustCeiling score

end

end Lyte
