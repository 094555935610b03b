import Lyte.Domain.AsciiJson
import Lyte.Intelligence.ForecastRisk

/-
  Lyte.Intelligence.ForecastEvaluation — walk-forward evaluation of a provider.

  The last `folds * horizon` points of a series are cut into holdouts.  Every
  fold forecasts its holdout from the training points before it, with the
  provider and with three baselines, and scores the forecasts on the scale of
  the training points.

  A fold has two halves: `forecastFold` makes the forecasts, `scoreFold` compares
  them with the holdout.
-/

namespace Lyte

/-! ## §1. Series and their folds. -/

/-- An evenly spaced, oldest-first series. -/
structure EvaluationSeries where
  signalId : PyStr
  values : List (Option PyFloat)
  seasonLength : Int

/-- The arguments of an evaluation besides the series and the provider. -/
structure EvaluationParameters where
  horizon : Int
  folds : Int
  minContext : Int
  contextLimit : Int
  dataKind : PyStr

/-- A dict with the names of the four forecasts as its keys. -/
structure ByMethod (α : Type) where
  candidate : α
  robustDrift : α
  lastValue : α
  seasonalNaive : α

namespace ByMethod

def mapM {α β : Type} (f : α → Except ForecastExn β) (x : ByMethod α) :
    Except ForecastExn (ByMethod β) := do
  let candidate ← f x.candidate
  let robustDrift ← f x.robustDrift
  let lastValue ← f x.lastValue
  let seasonalNaive ← f x.seasonalNaive
  return ⟨candidate, robustDrift, lastValue, seasonalNaive⟩

def toJson {α : Type} (f : α → Json) (x : ByMethod α) : Json := .dict [
  (py "candidate", f x.candidate),
  (py "robust_drift", f x.robustDrift),
  (py "last_value", f x.lastValue),
  (py "seasonal_naive", f x.seasonalNaive)]

end ByMethod

/-- What a fold forecasts, and from what. -/
structure FoldRun where
  origin : Nat
  train : List (Option PyFloat)
  observedTruth : List PyFloat
  request : ForecastRequest
  candidate : GovernedForecast
  drift : GovernedForecast
  predictions : ByMethod (Option (List PyFloat))
  scale : Option PyFloat

/-- The record of a fold. -/
structure FoldRecord where
  run : FoldRun
  holdoutPoints : Nat
  mae : ByMethod (Option PyFloat)
  mase : ByMethod (Option PyFloat)
  scaledPinballLoss : Option PyFloat
  empiricalCoverage : PyFloat
  scaledIntervalWidth : Option PyFloat

/-- The record of a series. -/
structure SeriesRecord where
  signalId : PyStr
  seasonLength : Int
  folds : List FoldRecord
  meanMase : ByMethod (Option PyFloat)
  fullyScorable : Bool
  beatsStrongestBaseline : Bool

/-- The report. -/
structure Evaluation where
  provider : PyStr
  dataKind : PyStr
  datasetSha256 : PyStr
  horizon : Int
  foldCount : Int
  contextLimit : Int
  series : List SeriesRecord
  macroMeanMase : ByMethod (Option PyFloat)
  fullyScorable : Bool
  qualification : PyStr
  reportSha256 : PyStr

/-- The quantiles of an evaluation: 0.1, 0.5 and 0.9. -/
def evaluationQuantiles : List PyFloat :=
  [⟨0x3FB999999999999A⟩, .half, ⟨0x3FECCCCCCCCCCCCD⟩]

section Evaluate

variable (ar : Arithmetic)

/-! ## §2. Forecasts of a fold. -/

/-- `_mean`. -/
def finiteMean (values : List PyFloat) : Except ForecastExn PyFloat := do
  let result ← ForecastExn.lift (ar.fmean values)
  if !result.isFinite then
    ForecastExn.error "evaluation arithmetic produced a non-finite metric"
  else return result

/-- The differences of `_training_scale`: of all pairs of observations that are a
season apart. -/
def seasonDifferences (values : List (Option PyFloat)) (season : Nat) : List PyFloat :=
  (List.zipWith (fun earlier later =>
    match earlier, later with
    | some a, some b => some (ar.sub b a).abs
    | _, _ => none) values (values.drop season)).filterMap id

/-- `_training_scale`. -/
def trainingScale (values : List (Option PyFloat)) (season : Nat) :
    Except ForecastExn (Option PyFloat) :=
  let differences := seasonDifferences ar values season
  if differences.isEmpty then .ok none
  else do
    let scale ← finiteMean ar differences
    return if PyFloat.zero.lt scale then some scale else none

/-- `_scaled`. -/
def scaled (value : PyFloat) (scale : Option PyFloat) : Except ForecastExn (Option PyFloat) :=
  match scale with
  | none => .ok none
  | some s =>
      let result := ar.div value s
      if !result.isFinite then
        ForecastExn.error "evaluation arithmetic produced a non-finite metric"
      else .ok (some result)

/-- `point.quantiles[quantile_key(q)]`. -/
def quantileAt (point : ForecastPoint) (q : PyFloat) : Except ForecastExn PyFloat :=
  match point.quantiles.lookup (quantileKey ar q) with
  | some value => .ok value
  | none => .error (.raised (.valueError (py "KeyError")))

/-- The training points of a fold: at most `contextLimit` points up to its origin. -/
def trainSlice (values : List (Option PyFloat)) (origin contextLimit : Nat) :
    List (Option PyFloat) :=
  (values.take origin).drop (origin - contextLimit)

/-- The last season of the training points, over and over. -/
def seasonalNaive (train : List (Option PyFloat)) (season horizon : Nat) : Option (List PyFloat) :=
  let seasonTail := train.drop (train.length - season)
  if seasonTail.all Option.isSome then
    some ((List.range horizon).map (fun i => (seasonTail.getD (i % season) none).getD .zero))
  else none

/-- The first half of a round: the forecasts. -/
def forecastFold (provider : ForecastProvider) (horizon folds contextLimit : Nat)
    (item : EvaluationSeries) (fold : Nat) : Except ForecastExn FoldRun :=
  let season := item.seasonLength.toNat
  let origin := item.values.length - (folds - fold) * horizon
  let train := trainSlice item.values origin contextLimit
  let truth := (item.values.drop origin).take horizon
  if truth.any Option.isNone then
    ForecastExn.error "missing holdout observations cannot be imputed for scoring"
  else do
    let request : ForecastRequest := ⟨item.signalId, train, horizon, evaluationQuantiles⟩
    let candidate ← runForecast ar request provider
    let drift ← runForecast ar request (robustDriftProvider ar)
    let last := List.replicate horizon ((train.filterMap id).getLastD .zero)
    let seasonal := seasonalNaive train season horizon
    let candidateMedian ← candidate.points.mapM (fun p => quantileAt ar p .half)
    let driftMedian ← drift.points.mapM (fun p => quantileAt ar p .half)
    let scale ← trainingScale ar train season
    return {
      origin := origin
      train := train
      observedTruth := truth.filterMap id
      request := request
      candidate := candidate
      drift := drift
      predictions := ⟨some candidateMedian, some driftMedian, some last, seasonal⟩
      scale := scale }

/-! ## §3. Scores. -/

/-- `zip(xs, ys, strict=True)`. -/
def zipStrict {α β : Type} (xs : List α) (ys : List β) : Except ForecastExn (List (α × β)) :=
  if xs.length = ys.length then .ok (xs.zip ys)
  else .error (.raised (.valueError (py "zip() arguments have different lengths")))

/-- The mean absolute error of a forecast. -/
def meanAbsoluteError (truth : List PyFloat) (prediction : Option (List PyFloat)) :
    Except ForecastExn (Option PyFloat) :=
  match prediction with
  | none => .ok none
  | some pred => do
      let pairs ← zipStrict truth pred
      let mean ← finiteMean ar (pairs.map (fun p => (ar.sub p.1 p.2).abs))
      return some mean

/-- The pinball loss of one quantile at one step. -/
def pinballLoss (y : PyFloat) (point : ForecastPoint) (q : PyFloat) :
    Except ForecastExn PyFloat := do
  let predicted ← quantileAt ar point q
  let error := ar.sub y predicted
  return PyFloat.max (ar.mul q error) (ar.mul (ar.sub q .one) error)

/-- One step of the scores: the step is covered, its interval width, its losses. -/
def scoreStep (y : PyFloat) (point : ForecastPoint) :
    Except ForecastExn (Bool × PyFloat × List PyFloat) := do
  let lo ← quantileAt ar point ⟨0x3FB999999999999A⟩
  let hi ← quantileAt ar point ⟨0x3FECCCCCCCCCCCCD⟩
  let losses ← evaluationQuantiles.mapM (pinballLoss ar y point)
  return (lo.le y && y.le hi, ar.sub hi lo, losses)

/-- `_scaled`, of a value that may be None. -/
def scaledOption (scale : Option PyFloat) (value : Option PyFloat) :
    Except ForecastExn (Option PyFloat) :=
  match value with
  | none => .ok none
  | some v => scaled ar v scale

/-- The second half of a round: the scores. -/
def scoreFold (horizon : Nat) (run : FoldRun) : Except ForecastExn FoldRecord := do
  let mae ← run.predictions.mapM (meanAbsoluteError ar run.observedTruth)
  let pairs ← zipStrict run.observedTruth run.candidate.points
  let steps ← pairs.mapM (fun p => scoreStep ar p.1 p.2)
  let mase ← mae.mapM (scaledOption ar run.scale)
  let pinball ← finiteMean ar (steps.flatMap (fun s => s.2.2))
  let scaledPinball ← scaled ar pinball run.scale
  let width ← finiteMean ar (steps.map (fun s => s.2.1))
  let scaledWidth ← scaled ar width run.scale
  return {
    run := run
    holdoutPoints := horizon
    mae := mae
    mase := mase
    scaledPinballLoss := scaledPinball
    empiricalCoverage := ar.divInt (steps.countP (fun s => s.1)) horizon
    scaledIntervalWidth := scaledWidth }

def evaluateFold (provider : ForecastProvider) (horizon folds contextLimit : Nat)
    (item : EvaluationSeries) (fold : Nat) : Except ForecastExn FoldRecord := do
  let run ← forecastFold ar provider horizon folds contextLimit item fold
  scoreFold ar horizon run

/-- The mean of scores, None if one of them is. -/
def completeMean (values : List (Option PyFloat)) : Except ForecastExn (Option PyFloat) :=
  if values.all Option.isSome then do
    let mean ← finiteMean ar (values.filterMap id)
    return some mean
  else .ok none

/-- The means of one score for each forecast. -/
def meansOf {α : Type} (score : α → ByMethod (Option PyFloat)) (rows : List α) :
    Except ForecastExn (ByMethod (Option PyFloat)) :=
  ByMethod.mapM (completeMean ar) {
    candidate := rows.map (fun r => (score r).candidate)
    robustDrift := rows.map (fun r => (score r).robustDrift)
    lastValue := rows.map (fun r => (score r).lastValue)
    seasonalNaive := rows.map (fun r => (score r).seasonalNaive) }

/-- The candidate's mean is less than the least of the baselines' means. -/
def improves (means : ByMethod (Option PyFloat)) : Bool :=
  match means.candidate, means.robustDrift, means.lastValue, means.seasonalNaive with
  | some candidate, some drift, some last, some seasonal =>
      candidate.lt (PyFloat.min (PyFloat.min drift last) seasonal)
  | _, _, _, _ => false

def ByMethod.complete (means : ByMethod (Option PyFloat)) : Bool :=
  means.candidate.isSome && means.robustDrift.isSome && means.lastValue.isSome &&
    means.seasonalNaive.isSome

/-! ## §4. Series. -/

/-- One round of the loop over the series. -/
def evaluateSeries (provider : ForecastProvider) (horizon folds minContext contextLimit : Nat)
    (item : EvaluationSeries) : Except ForecastExn SeriesRecord :=
  if !(1 ≤ item.seasonLength && item.seasonLength < minContext) then
    ForecastExn.error "season_length must be positive and below min_context"
  else if maxContext + folds * horizon < item.values.length then
    ForecastExn.error "evaluation series exceeds bounded context plus holdouts"
  else if item.values.length < minContext + folds * horizon then
    ForecastExn.error "insufficient history for non-overlapping walk-forward folds"
  else if item.values.any (fun v => v.any (fun f => !f.isFinite)) then
    ForecastExn.error "evaluation series contains non-finite observations"
  else do
    let foldRecords ← (List.range folds).mapM
      (evaluateFold ar provider horizon folds contextLimit item)
    let means ← meansOf ar FoldRecord.mase foldRecords
    return {
      signalId := item.signalId
      seasonLength := item.seasonLength
      folds := foldRecords
      meanMase := means
      fullyScorable := means.complete
      beatsStrongestBaseline := improves means }

/-- A bounded argument. -/
def boundedArgument (name : String) (value lower upper : Int) : Except ForecastExn Unit :=
  if lower ≤ value ∧ value ≤ upper then .ok ()
  else .error (.forecastError (py name ++ py " must be an integer in [" ++ decimalInt lower ++
    py ", " ++ decimalInt upper ++ py "]"))

/-- The checks of the arguments. -/
def checkArguments (series : List EvaluationSeries) (p : EvaluationParameters) :
    Except ForecastExn Unit := do
  boundedArgument "horizon" p.horizon 1 1024
  boundedArgument "folds" p.folds 2 32
  boundedArgument "min_context" p.minContext 2 maxContext
  boundedArgument "context_limit" p.contextLimit 2 maxContext
  if p.contextLimit < p.minContext then
    ForecastExn.error "min_context cannot exceed context_limit"
  else if series.isEmpty || 256 < series.length then
    ForecastExn.error "between 1 and 256 evaluation series are required"
  else if p.dataKind ≠ py "synthetic" ∧ p.dataKind ≠ py "operator_supplied" then
    ForecastExn.error "data_kind must be synthetic or operator_supplied"
  else if series.any (fun item => (strip item.signalId).isEmpty) ||
      !decide ((series.map EvaluationSeries.signalId).Nodup) then
    ForecastExn.error "evaluation signal identifiers must be nonempty and unique"
  else return ()

/-! ## §5. Reports. -/

/-- `asdict(item)`. -/
def EvaluationSeries.asdict (item : EvaluationSeries) : Json := .dict [
  (py "signal_id", .str item.signalId),
  (py "values", .list (item.values.map optionalFloat)),
  (py "season_length", .int item.seasonLength)]

def FoldRecord.toJson (r : FoldRecord) : Json := .dict [
  (py "origin_index", .int r.run.origin),
  (py "training_points", .int r.run.train.length),
  (py "holdout_points", .int r.holdoutPoints),
  (py "training_scale", optionalFloat r.run.scale),
  (py "mae_per_signal_units", r.mae.toJson optionalFloat),
  (py "mase", r.mase.toJson optionalFloat),
  (py "scaled_pinball_loss", optionalFloat r.scaledPinballLoss),
  (py "nominal_interval_coverage", .float ⟨0x3FE999999999999A⟩),
  (py "empirical_interval_coverage", .float r.empiricalCoverage),
  (py "scaled_interval_width", optionalFloat r.scaledIntervalWidth),
  (py "candidate_receipt", r.run.candidate.receipt.asdict)]

def SeriesRecord.toJson (r : SeriesRecord) : Json := .dict [
  (py "signal_id", .str r.signalId),
  (py "season_length", .int r.seasonLength),
  (py "folds", .list (r.folds.map FoldRecord.toJson)),
  (py "mean_mase", r.meanMase.toJson optionalFloat),
  (py "fully_scorable", .bool r.fullyScorable),
  (py "beats_strongest_baseline", .bool r.beatsStrongestBaseline)]

def evaluationLimitations : List PyStr := [
  py "Caller-supplied series must be evenly spaced and in chronological order.",
  py "This evaluator cannot establish pretraining contamination or production representativeness.",
  py "Empirical interval coverage is diagnostic, not a calibration guarantee.",
  py ("Production admission requires separately verified telemetry and deployment SLO " ++
    "evidence."),
  py "Content hashes are not signatures, identity attestations, or accuracy guarantees."]

/-- The report as it is digested: all of it but its own digest. -/
def Evaluation.body (e : Evaluation) : Json := .dict [
  (py "schema", .str (py "szl.lyte.forecast-walk-forward/v1")),
  (py "provider", .str e.provider),
  (py "data_kind", .str e.dataKind),
  (py "data_kind_attestation", .str (py "CALLER_DECLARED_NOT_INDEPENDENTLY_VERIFIED")),
  (py "dataset_sha256", .str e.datasetSha256),
  (py "horizon", .int e.horizon),
  (py "fold_count", .int e.foldCount),
  (py "context_limit", .int e.contextLimit),
  (py "series", .list (e.series.map SeriesRecord.toJson)),
  (py "macro_mean_mase", e.macroMeanMase.toJson optionalFloat),
  (py "fully_scorable", .bool e.fullyScorable),
  (py "qualification", .str e.qualification),
  (py "production_admitted", .bool false),
  (py "execution_authority", .str (py "NONE")),
  (py "limitations", .list (evaluationLimitations.map .str))]

/-- The report of the series, before it is digested. -/
def evaluationReport (provider : ForecastProvider) (p : EvaluationParameters)
    (records : List SeriesRecord) (macroMeans : ByMethod (Option PyFloat))
    (datasetSha256 : PyStr) : Evaluation :=
  let complete := records.all SeriesRecord.fullyScorable
  { provider := provider.name
    dataKind := p.dataKind
    datasetSha256 := datasetSha256
    horizon := p.horizon
    foldCount := p.folds
    contextLimit := p.contextLimit
    series := records
    macroMeanMase := macroMeans
    fullyScorable := complete
    qualification := if complete && records.all SeriesRecord.beatsStrongestBaseline then
        py "IMPROVES_ALL_SERIES_OVER_STRONGEST_BASELINE"
      else py "NOT_ESTABLISHED"
    reportSha256 := [] }

/-- The means over the series, where all of them have one. -/
def macroMeanMase (records : List SeriesRecord) : Except ForecastExn (ByMethod (Option PyFloat)) :=
  if records.all SeriesRecord.fullyScorable then meansOf ar SeriesRecord.meanMase records
  else .ok ⟨none, none, none, none⟩

/-- `evaluate_walk_forward`. -/
def evaluateWalkForward (series : List EvaluationSeries) (provider : ForecastProvider)
    (p : EvaluationParameters) : Except ForecastExn Evaluation := do
  checkArguments series p
  let records ← series.mapM (evaluateSeries ar provider p.horizon.toNat p.folds.toNat
    p.minContext.toNat p.contextLimit.toNat)
  let macroMeans ← macroMeanMase ar records
  let datasetSha256 ← ForecastExn.lift
    (asciiDigest ar.toRuntime (.list (series.map EvaluationSeries.asdict)))
  let report := evaluationReport provider p records macroMeans datasetSha256
  let digest ← ForecastExn.lift (asciiDigest ar.toRuntime report.body)
  return { report with reportSha256 := digest }

end Evaluate

end Lyte
