import Lyte.Intelligence.ForecastLoom
import Lyte.Lib.Program

/-
  Lyte.Intelligence.ForecastRisk — threshold-risk windows of a forecast.

  `deriveRiskWindow` checks a forecast against its receipt and reads off, for
  every step, between which two quantile levels the threshold lies.  Bounds are
  exact: a level counts as the decimal that `str` writes for it, as the source
  computes `Decimal(1) - Decimal(str(q))`.
-/

namespace Lyte

/-! ## §1. Rules and reports. -/

inductive Direction where
  | above | below
deriving DecidableEq

def Direction.value : Direction → PyStr
  | .above => py "above"
  | .below => py "below"

/-- A strict event (> or <), with an operator-selected alert level. -/
structure ThresholdRule where
  threshold : PyFloat
  direction : Direction
  alertLevel : PyFloat

/-- One step of a report. -/
structure RiskStep where
  step : Nat
  breachLower : Rat
  breachUpper : Rat
  medianCrosses : Bool

structure AnyBreach where
  lower : Rat
  upper : Rat
  method : PyStr

structure RiskReport where
  contract : PyStr
  signalId : PyStr
  provider : PyStr
  rule : ThresholdRule
  eventSemantics : PyStr
  timeUnit : PyStr
  steps : List RiskStep
  earliestPossibleAlertStep : Option Nat
  earliestSupportedAlertStep : Option Nat
  firstMedianCrossingStep : Option Nat
  anyBreachOverHorizon : AnyBreach
  forecastReceiptSha256 : PyStr
  forecastOutputSha256 : PyStr
  calibrationStatus : PyStr
  productionAdmitted : Bool
  executionAuthority : PyStr
  limitations : List PyStr
  reportSha256 : PyStr

def riskContract : PyStr := py "szl.lyte.forecast-risk-window/v1"

def riskMethod : PyStr := py "MARGINAL_MAX_LOWER_UNION_SUM_UPPER_NO_INDEPENDENCE_ASSUMPTION"

def riskLimitations : List PyStr := [
  py "Bounds are conditional on model quantiles; they are not calibrated incident risk.",
  py "Marginal quantiles do not identify a joint trajectory or first-passage distribution.",
  py "A null alert step means not established within this horizon, not that the signal is safe.",
  py "Alert levels are operator policy; this report does not estimate intervention benefit.",
  py "Digests bind content, not signer identity, real-world provenance, or accuracy."]

section Risk

variable (ar : Arithmetic)

/-- A quantile level as the decimal that it is written as. -/
def level (q : PyFloat) : Rat := (ar.toDecimal q).value

/-- `max(levels, default=…)`. -/
def maxLevel (default : PyFloat) : List PyFloat → PyFloat
  | [] => default
  | q :: qs => qs.foldl PyFloat.max q

/-- `min(levels, default=…)`. -/
def minLevel (default : PyFloat) : List PyFloat → PyFloat
  | [] => default
  | q :: qs => qs.foldl PyFloat.min q

/-! ## §2. The checks. -/

/-- `_validate_rule`. -/
def validateRule (rule : ThresholdRule) : Except ForecastExn Unit :=
  if !rule.threshold.isFinite then ForecastExn.error "threshold must be a finite number"
  else if !rule.alertLevel.isFinite then ForecastExn.error "alert_level must be a finite number"
  else if !(PyFloat.zero.lt rule.alertLevel && rule.alertLevel.le .one) then
    ForecastExn.error "alert_level must be in (0, 1]"
  else .ok ()

/-- `asdict(receipt)`. -/
def ForecastReceipt.asdict (r : ForecastReceipt) : Json := .dict [
  (py "contract", .str r.contract),
  (py "signal_id", .str r.signalId),
  (py "provider", .str r.provider),
  (py "context_points", .int r.contextPoints),
  (py "imputed_points", .int r.imputedPoints),
  (py "horizon", .int r.horizon),
  (py "quantiles", .list (r.quantiles.map .float)),
  (py "input_sha256", .str r.inputSha256),
  (py "output_sha256", .str r.outputSha256),
  (py "confidence", .float r.confidence),
  (py "limitations", .list (r.limitations.map .str)),
  (py "raw_input_sha256", .str r.rawInputSha256),
  (py "original_context_points", .int r.originalContextPoints),
  (py "truncated_points", .int r.truncatedPoints)]

/-- The forecast is complete and is what its receipt says. -/
def checkForecast (forecast : GovernedForecast) : Except ForecastExn Unit :=
  let receipt := forecast.receipt
  if receipt.contract ≠ contractVersion then
    ForecastExn.error "unsupported forecast contract for risk derivation"
  else if receipt.quantiles.isEmpty || 99 < receipt.quantiles.length ||
      receipt.quantiles.any (fun q => !q.isFinite || !(PyFloat.zero.lt q && q.lt .one)) ||
      !PyFloat.increasing receipt.quantiles || !receipt.quantiles.any (fun q => q.eq .half) then
    ForecastExn.error "risk derivation requires ordered finite forecast quantiles"
  else if !(1 ≤ receipt.horizon && receipt.horizon ≤ 1024) ||
      (forecast.points.length : Int) ≠ receipt.horizon then
    ForecastExn.error "risk derivation requires a complete bounded forecast horizon"
  else do
    let digest ← ForecastExn.lift
      (sha256Json ar.toRuntime (.list (forecast.points.map ForecastPoint.asdict)))
    if digest ≠ receipt.outputSha256 then ForecastExn.error "forecast output digest mismatch"
    else return ()

/-- The quantiles of one step in the order of their levels, or None where the step
does not have exactly these. -/
def stepValues (quantiles : List PyFloat) (point : ForecastPoint) : Option (List PyFloat) :=
  let keys := quantiles.map (quantileKey ar)
  if point.quantiles.all (fun f => keys.contains f.1) then
    keys.mapM (fun k => point.quantiles.lookup k)
  else none

/-! ## §3. The window. -/

/-- The bracket of one step, from its levels and values. -/
def breachBracket (rule : ThresholdRule) (pairs : List (PyFloat × PyFloat)) : Rat × Rat :=
  match rule.direction with
  | .above =>
      let cdfLower := maxLevel .zero
        ((pairs.filter (fun p => p.2.le rule.threshold)).map Prod.fst)
      let cdfUpper := minLevel .one
        ((pairs.filter (fun p => rule.threshold.lt p.2)).map Prod.fst)
      (1 - level ar cdfUpper, 1 - level ar cdfLower)
  | .below =>
      (level ar (maxLevel .zero ((pairs.filter (fun p => p.2.lt rule.threshold)).map Prod.fst)),
        level ar (minLevel .one ((pairs.filter (fun p => rule.threshold.le p.2)).map Prod.fst)))

/-- The median is beyond the threshold. -/
def medianCrosses (rule : ThresholdRule) (point : ForecastPoint) : Bool :=
  (point.quantiles.lookup (quantileKey ar .half)).any (fun median =>
    match rule.direction with
    | .above => rule.threshold.lt median
    | .below => median.lt rule.threshold)

/-- One round of the loop. -/
def riskStep (quantiles : List PyFloat) (rule : ThresholdRule) (step : Nat)
    (point : ForecastPoint) : Except ForecastExn RiskStep :=
  let mismatch := ForecastExn.error "forecast step or quantile keys do not match the receipt"
  if point.step ≠ step then mismatch
  else match stepValues ar quantiles point with
    | none => mismatch
    | some values =>
        if values.any (fun v => !v.isFinite) || !PyFloat.ascending values then
          ForecastExn.error "risk derivation rejects non-finite or crossing quantiles"
        else
          let bracket := breachBracket ar rule (quantiles.zip values)
          .ok ⟨step, bracket.1, bracket.2, medianCrosses ar rule point⟩

/-- The loop over the steps. -/
def riskSteps (quantiles : List PyFloat) (rule : ThresholdRule) :
    Nat → List ForecastPoint → Except ForecastExn (List RiskStep)
  | _, [] => .ok []
  | step, point :: points => do
      let row ← riskStep ar quantiles rule step point
      let rows ← riskSteps quantiles rule (step + 1) points
      return row :: rows

/-- `first_at_or_above`. -/
def firstAtOrAbove (rule : ThresholdRule) (bound : RiskStep → Rat) (rows : List RiskStep) :
    Option Nat :=
  (rows.find? (fun row => level ar rule.alertLevel ≤ bound row)).map RiskStep.step

/-- `max(bounds)`. -/
def maxBound : List Rat → Rat
  | [] => 0
  | b :: bs => bs.foldl max b

theorem maxBound_cases (bs : List Rat) : maxBound bs = 0 ∨ maxBound bs ∈ bs := by
  have hfold : ∀ (bs : List Rat) b, bs.foldl max b ∈ b :: bs := by
    intro bs
    induction bs with
    | nil => exact fun b => List.mem_singleton.mpr rfl
    | cons x bs ih =>
      intro b
      rw [List.foldl_cons]
      rcases List.mem_cons.mp (ih (max b x)) with h | h
      · rw [h]
        rcases max_choice b x with h' | h'
        · rw [h']
          exact List.mem_cons_self
        · rw [h']
          exact List.mem_cons_of_mem _ List.mem_cons_self
      · exact List.mem_cons_of_mem _ (List.mem_cons_of_mem _ h)
  cases bs with
  | nil => exact .inl rfl
  | cons b bs => exact .inr (hfold bs b)

/-- The bracket of a breach at any step: the largest lower bound, and the sum of
the upper bounds. -/
def anyBreach (rows : List RiskStep) : AnyBreach where
  lower := maxBound (rows.map RiskStep.breachLower)
  upper := min 1 (rows.map RiskStep.breachUpper).sum
  method := riskMethod

def optionalStep (step : Option Nat) : Json :=
  match step with
  | some n => .int n
  | none => .null

/-- `asdict(rule)`. -/
def ThresholdRule.asdict (rule : ThresholdRule) : Json := .dict [
  (py "threshold", .float rule.threshold),
  (py "direction", .str rule.direction.value),
  (py "alert_level", .float rule.alertLevel)]

def RiskStep.asdict (row : RiskStep) : Json := .dict [
  (py "step", .int row.step),
  (py "model_implied_breach_lower", .float (ar.ofRat row.breachLower)),
  (py "model_implied_breach_upper", .float (ar.ofRat row.breachUpper)),
  (py "median_crosses", .bool row.medianCrosses)]

/-- The report as it is digested: all of it but its own digest. -/
def RiskReport.body (r : RiskReport) : Json := .dict [
  (py "contract", .str r.contract),
  (py "signal_id", .str r.signalId),
  (py "provider", .str r.provider),
  (py "rule", r.rule.asdict),
  (py "event_semantics", .str r.eventSemantics),
  (py "time_unit", .str r.timeUnit),
  (py "steps", .list (r.steps.map (RiskStep.asdict ar))),
  (py "earliest_possible_alert_step", optionalStep r.earliestPossibleAlertStep),
  (py "earliest_supported_alert_step", optionalStep r.earliestSupportedAlertStep),
  (py "first_median_crossing_step", optionalStep r.firstMedianCrossingStep),
  (py "any_breach_over_horizon", .dict [
    (py "lower", .float (ar.ofRat r.anyBreachOverHorizon.lower)),
    (py "upper", .float (ar.ofRat r.anyBreachOverHorizon.upper)),
    (py "method", .str r.anyBreachOverHorizon.method)]),
  (py "forecast_receipt_sha256", .str r.forecastReceiptSha256),
  (py "forecast_output_sha256", .str r.forecastOutputSha256),
  (py "calibration_status", .str r.calibrationStatus),
  (py "production_admitted", .bool r.productionAdmitted),
  (py "execution_authority", .str r.executionAuthority),
  (py "limitations", .list (r.limitations.map .str))]

/-- The report of the steps, before it is digested. -/
def riskReport (forecast : GovernedForecast) (rule : ThresholdRule) (rows : List RiskStep)
    (receiptSha256 : PyStr) : RiskReport where
  contract := riskContract
  signalId := forecast.receipt.signalId
  provider := forecast.receipt.provider
  rule := rule
  eventSemantics := match rule.direction with
    | .above => py "STRICT_GREATER_THAN"
    | .below => py "STRICT_LESS_THAN"
  timeUnit := py "FORECAST_STEPS_NOT_WALL_CLOCK"
  steps := rows
  earliestPossibleAlertStep := firstAtOrAbove ar rule RiskStep.breachUpper rows
  earliestSupportedAlertStep := firstAtOrAbove ar rule RiskStep.breachLower rows
  firstMedianCrossingStep := (rows.find? RiskStep.medianCrosses).map RiskStep.step
  anyBreachOverHorizon := anyBreach rows
  forecastReceiptSha256 := receiptSha256
  forecastOutputSha256 := forecast.receipt.outputSha256
  calibrationStatus := py "NOT_ESTABLISHED"
  productionAdmitted := false
  executionAuthority := py "NONE"
  limitations := riskLimitations
  reportSha256 := []

/-- `derive_risk_window`. -/
def deriveRiskWindow (forecast : GovernedForecast) (rule : ThresholdRule) :
    Except ForecastExn RiskReport := do
  validateRule rule
  checkForecast ar forecast
  let rows ← riskSteps ar forecast.receipt.quantiles rule 1 forecast.points
  let receiptSha256 ← ForecastExn.lift (sha256Json ar.toRuntime forecast.receipt.asdict)
  let report := riskReport ar forecast rule rows receiptSha256
  let digest ← ForecastExn.lift (sha256Json ar.toRuntime (report.body ar))
  return { report with reportSha256 := digest }

variable {ar}

theorem finite_of_validateRule {rule : ThresholdRule} {u : Unit} (h : validateRule rule = .ok u) :
    rule.threshold.isFinite = true := by
  unfold validateRule at h
  split at h
  · cases h
  · next hT => simpa using hT

/-- A report that is returned is the report of the steps, with its digest. -/
theorem deriveRiskWindow_report {forecast : GovernedForecast} {rule : ThresholdRule}
    {report : RiskReport} (h : deriveRiskWindow ar forecast rule = .ok report) :
    rule.threshold.isFinite = true ∧ ∃ rows receiptSha256 digest,
      riskSteps ar forecast.receipt.quantiles rule 1 forecast.points = .ok rows ∧
      sha256Json ar.toRuntime forecast.receipt.asdict = .ok receiptSha256 ∧
      sha256Json ar.toRuntime ((riskReport ar forecast rule rows receiptSha256).body ar)
        = .ok digest ∧
      report = { riskReport ar forecast rule rows receiptSha256 with reportSha256 := digest } := by
  unfold deriveRiskWindow at h
  obtain ⟨_, hrule, h⟩ := Transact.ok_of_bind h
  obtain ⟨_, _, h⟩ := Transact.ok_of_bind h
  obtain ⟨rows, hrows, h⟩ := Transact.ok_of_bind h
  obtain ⟨receiptSha256, hreceipt, h⟩ := Transact.ok_of_bind h
  obtain ⟨digest, hdigest, h⟩ := Transact.ok_of_bind h
  cases h
  exact ⟨finite_of_validateRule hrule, rows, receiptSha256, digest, hrows, ok_of_lift hreceipt,
    ok_of_lift hdigest, rfl⟩

end Risk

end Lyte
