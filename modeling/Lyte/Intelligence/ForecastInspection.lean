import Lyte.Intelligence.ForecastRisk

/-
  Lyte.Intelligence.ForecastInspection — the evidence that the workbench asks for.

  `inspectForecast` runs the baseline once, with a threshold rule, and
  `inspectionEnvelope` binds request, forecast and source revision in one
  canonical text with its digest.
-/

namespace Lyte

section Inspection

variable (ar : Arithmetic)

/-! ## §1. The forecast route. -/

/-- `ForecastBody.provider`. -/
inductive ProviderName where
  | baseline | granite
deriving DecidableEq

def ProviderName.value : ProviderName → PyStr
  | .baseline => py "baseline"
  | .granite => py "granite"

/-- `ForecastBody`. -/
structure ForecastBody where
  signalId : PyStr
  values : List (Option PyFloat)
  horizon : Int
  quantiles : List PyFloat
  provider : ProviderName
  risk : Option ThresholdRule

def riskBody (risk : Option ThresholdRule) : Json :=
  match risk with
  | some rule => rule.asdict
  | none => .null

/-- `body.model_dump(mode="json")`. -/
def ForecastBody.modelDump (b : ForecastBody) : List (PyStr × Json) := [
  (py "signal_id", .str b.signalId),
  (py "values", .list (b.values.map optionalFloat)),
  (py "horizon", .int b.horizon),
  (py "quantiles", .list (b.quantiles.map .float)),
  (py "provider", .str b.provider.value),
  (py "risk", riskBody b.risk)]

/-- The report with its own digest. -/
def RiskReport.asdict (r : RiskReport) : List (PyStr × Json) :=
  match r.body ar with
  | .dict fields => fields ++ [(py "report_sha256", .str r.reportSha256)]
  | _ => []

/-- The receipt as the route lists it. -/
def ForecastReceipt.response (r : ForecastReceipt) : List (PyStr × Json) := [
  (py "contract", .str r.contract),
  (py "signal_id", .str r.signalId),
  (py "provider", .str r.provider),
  (py "context_points", .int r.contextPoints),
  (py "imputed_points", .int r.imputedPoints),
  (py "horizon", .int r.horizon),
  (py "quantiles", .list (r.quantiles.map .float)),
  (py "input_sha256", .str r.inputSha256),
  (py "output_sha256", .str r.outputSha256),
  (py "raw_input_sha256", .str r.rawInputSha256),
  (py "original_context_points", .int r.originalContextPoints),
  (py "truncated_points", .int r.truncatedPoints),
  (py "confidence", .float r.confidence),
  (py "limitations", .list (r.limitations.map .str))]

/-- The response of the forecast route. -/
def forecastResponse (result : GovernedForecast) (risk : RiskReport) : List (PyStr × Json) := [
  (py "points", .list (result.points.map ForecastPoint.asdict)),
  (py "receipt", .dict result.receipt.response),
  (py "execution_authority", .str (py "NONE")),
  (py "risk_window", .dict (risk.asdict ar))]

/-- What the forecast route makes of an exception. -/
def forecastFailure : ForecastExn → Exn
  | .forecastError msg => .httpException 422 msg
  | .raised e => e

/-- `forecast`, of the baseline with a rule. -/
def forecast (body : ForecastBody) (rule : ThresholdRule) :
    Except Exn (GovernedForecast × RiskReport) :=
  let window := do
    let result ← runForecast ar ⟨body.signalId, body.values, body.horizon, body.quantiles⟩
      (robustDriftProvider ar)
    let risk ← deriveRiskWindow ar result rule
    return (result, risk)
  window.mapError forecastFailure

/-! ## §2. The envelope. -/

/-- `re.fullmatch(r"[0-9a-f]{40}", s)`. -/
def isRevision (s : PyStr) : Bool := s.length == 40 && s.all isLowerHex

/-- What `inspection_envelope` returns. -/
structure InspectionEnvelope where
  schema : PyStr
  canonicalJson : PyStr
  sha256 : PyStr
  hashSemantics : PyStr

/-- What the envelope binds. -/
def inspectionPayload (request forecast : List (PyStr × Json)) (revision : PyStr) : Json := .dict [
  (py "schema", .str (py "szl.lyte.forecast-inspection/v1")),
  (py "source", .dict [
    (py "repository", .str (py "szl-holdings/lyte-services")),
    (py "revision", .str revision)]),
  (py "request", .dict request),
  (py "forecast", .dict forecast),
  (py "input_provenance", .str (py "CALLER_SUPPLIED_NOT_INDEPENDENTLY_VERIFIED")),
  (py "execution_authority", .str (py "NONE")),
  (py "persisted", .bool false)]

/-- `inspection_envelope`. -/
def inspectionEnvelope (request forecast : List (PyStr × Json)) (revision : PyStr) :
    Except Exn InspectionEnvelope :=
  let risk := match Json.get forecast (py "risk_window") with
    | .dict fields => some fields
    | _ => none
  match risk with
  | none => .error (.valueError (py "inspection requires a threshold-risk result"))
  | some risk =>
      if !isRevision revision then
        .error (.valueError (py "an exact observed source revision is required"))
      else if !(Json.get forecast (py "execution_authority")).pyEq (.str (py "NONE")) ||
          !(Json.get risk (py "execution_authority")).pyEq (.str (py "NONE")) ||
          !(Json.get risk (py "production_admitted")).pyEq (.bool false) ||
          !(Json.get risk (py "calibration_status")).pyEq (.str (py "NOT_ESTABLISHED")) then
        .error (.valueError (py "inspection cannot amplify forecast authority"))
      else if !(Json.get request (py "provider")).pyEq (.str (py "baseline")) then
        .error (.valueError (py "the public workbench inspects the baseline only"))
      else do
        let canonical ← Lyte.canonicalJson ar.toRuntime
          (inspectionPayload request forecast revision)
        let digest ← sha256Text ar.toRuntime canonical
        return {
          schema := py "szl.lyte.forecast-inspection-envelope/v1"
          canonicalJson := canonical
          sha256 := digest
          hashSemantics := py "CONTENT_INTEGRITY_NOT_SIGNATURE_OR_ACCURACY" }

/-- The quantiles of the workbench, `[0.1, 0.5, 0.9]`. -/
def workbenchQuantiles : List PyFloat := [⟨0x3FB999999999999A⟩, .half, ⟨0x3FECCCCCCCCCCCCD⟩]

/-- `except ValueError`. -/
def envelopeFailure (e : Exn) : Exn :=
  if e.isValueError then .httpException 503 (py "Forecast evidence unavailable") else e

/-- `inspect_forecast`, with the two readings of the source revision. -/
def inspectForecast (body : ForecastBody) (revision revisionAfter : Option PyStr) :
    Except Exn InspectionEnvelope :=
  if body.provider ≠ .baseline then
    .error (.httpException 422 (py "Workbench supports the baseline only"))
  else if !(body.quantiles.length == 3 &&
      (List.zipWith PyFloat.eq body.quantiles workbenchQuantiles).all id) then
    .error (.httpException 422 (py "Workbench requires q10, q50, q90"))
  else
    match body.risk, revision with
    | none, _ => .error (.httpException 422 (py "A threshold-risk rule is required"))
    | some _, none => .error (.httpException 503 (py "Exact source identity is unavailable"))
    | some rule, some revision => do
        let (result, risk) ← forecast ar body rule
        if revisionAfter ≠ some revision then
          throw (.httpException 503 (py "Source identity changed during inspection"))
        (inspectionEnvelope ar body.modelDump (forecastResponse ar result risk) revision).mapError
          envelopeFailure

end Inspection

end Lyte
