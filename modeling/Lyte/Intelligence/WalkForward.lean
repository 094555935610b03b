import Lyte.Intelligence.ForecastEvaluation
import Lyte.Lib.Program
import Mathlib.Order.Interval.Finset.Nat
import Mathlib.Tactic.Ring

/-
  Lyte.Intelligence.WalkForward — an evaluation does not look ahead.

  A fold sees a series through its training slice only: what the provider is
  handed, what it and the baselines predict and the scale of the scores are
  functions of that slice.  The slice is taken from the points before the origin,
  so two series that agree there cannot be told apart by the fold.
-/

namespace Lyte

open Transact

/-! ## §1. Forecasts are functions of their context. -/

section Forecast

variable {ar : Arithmetic} {request request' : ForecastRequest} {provider : ForecastProvider}

theorem impute_of_forecastContext {context : List PyFloat × Nat}
    (h : forecastContext ar request = .ok context) : impute ar request.values = .ok context := by
  unfold forecastContext at h
  split at h
  · cases h
  · split at h
    · cases h
    · obtain ⟨_, _, h⟩ := ok_of_bind h
      split at h
      · cases h
      · exact h

/-- A forecast that is returned was made of what the provider returned for the
context, and of nothing else. -/
theorem runForecast_ok {forecast : GovernedForecast}
    (h : runForecast ar request provider = .ok forecast) :
    ∃ context raw, forecastContext ar request = .ok context ∧
      provider.forecast context.1 request.horizon.toNat request.quantiles = .ok raw ∧
      normalizeRows ar request.quantiles 1 raw = .ok forecast.points := by
  unfold runForecast at h
  obtain ⟨⟨values, imputed⟩, hcontext, h⟩ := ok_of_bind h
  obtain ⟨raw, hraw, h⟩ := ok_of_bind h
  split at h
  · cases h
  · obtain ⟨points, hpoints, h⟩ := ok_of_bind h
    obtain ⟨receipt, _, h⟩ := ok_of_bind h
    cases h
    exact ⟨(values, imputed), raw, hcontext, ok_of_lift hraw, hpoints⟩

/-- Requests for the same values have the same context, whatever their signal. -/
theorem forecastContext_eq (hvalues : request.values = request'.values)
    {context context' : List PyFloat × Nat} (h : forecastContext ar request = .ok context)
    (h' : forecastContext ar request' = .ok context') : context = context' := by
  have hone := impute_of_forecastContext h
  have htwo := impute_of_forecastContext h'
  rw [hvalues, htwo] at hone
  cases hone
  rfl

theorem runForecast_points_eq (hvalues : request.values = request'.values)
    (hhorizon : request.horizon = request'.horizon)
    (hquantiles : request.quantiles = request'.quantiles) {forecast forecast' : GovernedForecast}
    (h : runForecast ar request provider = .ok forecast)
    (h' : runForecast ar request' provider = .ok forecast') :
    forecast.points = forecast'.points := by
  obtain ⟨context, raw, hcontext, hraw, hpoints⟩ := runForecast_ok h
  obtain ⟨context', raw', hcontext', hraw', hpoints'⟩ := runForecast_ok h'
  have hsame := forecastContext_eq hvalues hcontext hcontext'
  rw [hsame, hhorizon, hquantiles, hraw'] at hraw
  cases hraw
  rw [hquantiles, hpoints'] at hpoints
  exact (Except.ok.inj hpoints).symm

end Forecast

/-! ## §2. What each part of an evaluation does. -/

section Parts

variable {ar : Arithmetic} {provider : ForecastProvider} {item : EvaluationSeries}
variable {horizon folds minContext contextLimit fold : Nat}

/-- A round that came through its first half. -/
structure ForecastsOf (ar : Arithmetic) (provider : ForecastProvider)
    (horizon folds contextLimit : Nat) (item : EvaluationSeries) (fold : Nat) (run : FoldRun) :
    Prop where
  origin : run.origin = item.values.length - (folds - fold) * horizon
  train : run.train = trainSlice item.values run.origin contextLimit
  truth : ((item.values.drop run.origin).take horizon).all Option.isSome = true
  observed : run.observedTruth = ((item.values.drop run.origin).take horizon).filterMap id
  request : run.request = ⟨item.signalId, run.train, horizon, evaluationQuantiles⟩
  candidate : runForecast ar run.request provider = .ok run.candidate
  drift : runForecast ar run.request (robustDriftProvider ar) = .ok run.drift
  candidateMedian : ∃ medians, run.candidate.points.mapM (fun p => quantileAt ar p .half)
    = .ok medians ∧ run.predictions.candidate = some medians
  driftMedian : ∃ medians, run.drift.points.mapM (fun p => quantileAt ar p .half)
    = .ok medians ∧ run.predictions.robustDrift = some medians
  lastValue : run.predictions.lastValue
    = some (List.replicate horizon ((run.train.filterMap id).getLastD .zero))
  seasonal : run.predictions.seasonalNaive
    = seasonalNaive run.train item.seasonLength.toNat horizon
  scale : trainingScale ar run.train item.seasonLength.toNat = .ok run.scale

theorem forecastFold_ok {run : FoldRun}
    (h : forecastFold ar provider horizon folds contextLimit item fold = .ok run) :
    ForecastsOf ar provider horizon folds contextLimit item fold run := by
  unfold forecastFold at h
  simp only at h
  split at h
  · cases h
  · next htruth =>
    obtain ⟨candidate, hcandidate, h⟩ := ok_of_bind h
    obtain ⟨drift, hdrift, h⟩ := ok_of_bind h
    obtain ⟨candidateMedian, hcandidateMedian, h⟩ := ok_of_bind h
    obtain ⟨driftMedian, hdriftMedian, h⟩ := ok_of_bind h
    obtain ⟨scale, hscale, h⟩ := ok_of_bind h
    cases h
    have hall : ((item.values.drop (item.values.length - (folds - fold) * horizon)).take
        horizon).all Option.isSome = true := by
      rw [List.all_eq_true]
      intro v hv
      rw [List.any_eq_true] at htruth
      cases v with
      | none => exact absurd ⟨none, hv, rfl⟩ htruth
      | some f => rfl
    exact {
      origin := rfl
      train := rfl
      truth := hall
      observed := rfl
      request := rfl
      candidate := hcandidate
      drift := hdrift
      candidateMedian := ⟨candidateMedian, hcandidateMedian, rfl⟩
      driftMedian := ⟨driftMedian, hdriftMedian, rfl⟩
      lastValue := rfl
      seasonal := rfl
      scale := hscale }

/-- Scores are added to the first half, which stays as it is. -/
theorem scoreFold_ok {run : FoldRun} {record : FoldRecord}
    (h : scoreFold ar horizon run = .ok record) :
    record.run = run ∧ record.holdoutPoints = horizon := by
  unfold scoreFold at h
  obtain ⟨mae, _, h⟩ := ok_of_bind h
  obtain ⟨pairs, _, h⟩ := ok_of_bind h
  obtain ⟨steps, _, h⟩ := ok_of_bind h
  obtain ⟨mase, _, h⟩ := ok_of_bind h
  obtain ⟨pinball, _, h⟩ := ok_of_bind h
  obtain ⟨scaledPinball, _, h⟩ := ok_of_bind h
  obtain ⟨width, _, h⟩ := ok_of_bind h
  obtain ⟨scaledWidth, _, h⟩ := ok_of_bind h
  cases h
  exact ⟨rfl, rfl⟩

theorem evaluateFold_ok {record : FoldRecord}
    (h : evaluateFold ar provider horizon folds contextLimit item fold = .ok record) :
    ForecastsOf ar provider horizon folds contextLimit item fold record.run ∧
      record.holdoutPoints = horizon := by
  unfold evaluateFold at h
  obtain ⟨run, hrun, h⟩ := ok_of_bind h
  obtain ⟨hsame, hholdout⟩ := scoreFold_ok h
  rw [hsame]
  exact ⟨forecastFold_ok hrun, hholdout⟩

/-- A series that came through the loop. -/
structure FoldsOf (ar : Arithmetic) (provider : ForecastProvider)
    (horizon folds minContext contextLimit : Nat) (item : EvaluationSeries)
    (record : SeriesRecord) : Prop where
  season : 1 ≤ item.seasonLength ∧ item.seasonLength < minContext
  history : minContext + folds * horizon ≤ item.values.length
  length : record.folds.length = folds
  each : ∀ k fold, record.folds[k]? = some fold →
    ForecastsOf ar provider horizon folds contextLimit item k fold.run ∧
      fold.holdoutPoints = horizon

theorem evaluateSeries_ok {record : SeriesRecord}
    (h : evaluateSeries ar provider horizon folds minContext contextLimit item = .ok record) :
    FoldsOf ar provider horizon folds minContext contextLimit item record := by
  unfold evaluateSeries at h
  split at h
  · cases h
  · next hseason =>
    split at h
    · cases h
    · split at h
      · cases h
      · next hhistory =>
        split at h
        · cases h
        · obtain ⟨foldRecords, hfolds, h⟩ := ok_of_bind h
          obtain ⟨means, _, h⟩ := ok_of_bind h
          cases h
          obtain ⟨hlength, hall⟩ := ok_of_mapM hfolds
          rw [List.length_range] at hlength
          refine ⟨by simpa using hseason, Nat.le_of_not_lt hhistory, hlength.symm, ?_⟩
          intro k fold hk
          obtain ⟨hlt, hget⟩ := List.getElem?_eq_some_iff.mp hk
          have hround : (k, fold) ∈ (List.range folds).zip foldRecords := by
            refine List.mem_iff_getElem.mpr ⟨k, ?_, ?_⟩
            · rw [List.length_zip, List.length_range, hlength, Nat.min_self]
              exact hlt
            · rw [List.getElem_zip, List.getElem_range, hget]
          exact evaluateFold_ok (hall _ hround)

end Parts

theorem boundedArgument_ok {name : String} {value lower upper : Int} {u : Unit}
    (h : boundedArgument name value lower upper = .ok u) : lower ≤ value ∧ value ≤ upper := by
  unfold boundedArgument at h
  split at h
  · assumption
  · cases h

/-- The bounds of the arguments. -/
theorem checkArguments_ok {series : List EvaluationSeries} {p : EvaluationParameters} {u : Unit}
    (h : checkArguments series p = .ok u) :
    1 ≤ p.horizon ∧ 2 ≤ p.folds ∧ 2 ≤ p.minContext ∧ p.minContext ≤ p.contextLimit := by
  unfold checkArguments at h
  obtain ⟨_, hhorizon, h⟩ := ok_of_bind h
  obtain ⟨_, hfolds, h⟩ := ok_of_bind h
  obtain ⟨_, hmin, h⟩ := ok_of_bind h
  obtain ⟨_, _, h⟩ := ok_of_bind h
  split at h
  · cases h
  · next hle =>
    exact ⟨(boundedArgument_ok hhorizon).1, (boundedArgument_ok hfolds).1,
      (boundedArgument_ok hmin).1, Int.not_lt.mp hle⟩

/-- A series and its record. -/
def Evaluated (series : List EvaluationSeries) (ev : Evaluation) (item : EvaluationSeries)
    (record : SeriesRecord) : Prop := (item, record) ∈ series.zip ev.series

theorem evaluateWalkForward_ok {ar : Arithmetic} {provider : ForecastProvider}
    {p : EvaluationParameters} {series : List EvaluationSeries} {ev : Evaluation}
    (h : evaluateWalkForward ar series provider p = .ok ev) :
    (1 ≤ p.horizon ∧ 2 ≤ p.folds ∧ 2 ≤ p.minContext ∧ p.minContext ≤ p.contextLimit) ∧
    series.length = ev.series.length ∧
    ∀ item record, Evaluated series ev item record →
      FoldsOf ar provider p.horizon.toNat p.folds.toNat p.minContext.toNat p.contextLimit.toNat
        item record := by
  unfold evaluateWalkForward at h
  obtain ⟨_, hchecked, h⟩ := ok_of_bind h
  obtain ⟨records, hrecords, h⟩ := ok_of_bind h
  obtain ⟨macroMeans, _, h⟩ := ok_of_bind h
  obtain ⟨datasetSha256, _, h⟩ := ok_of_bind h
  obtain ⟨digest, _, h⟩ := ok_of_bind h
  cases h
  obtain ⟨hlength, hzip⟩ := ok_of_mapM hrecords
  exact ⟨checkArguments_ok hchecked, hlength, fun _ _ hmem => evaluateSeries_ok (hzip _ hmem)⟩

/-! ## §3. Training slices and holdouts. -/

/-- The indices of a holdout. -/
def FoldRecord.holdout (fold : FoldRecord) : Finset Nat :=
  Finset.Ico fold.run.origin (fold.run.origin + fold.holdoutPoints)

/-- **The folds of a series split its end**: the holdouts are disjoint, are the last
`folds * horizon` points together, and each follows its training slice. -/
structure SplitsEnd (p : EvaluationParameters) (item : EvaluationSeries) (record : SeriesRecord) :
    Prop where
  count : record.folds.length = p.folds.toNat
  disjoint : record.folds.Pairwise (fun a b => Disjoint a.holdout b.holdout)
  cover : ∀ i, (∃ fold ∈ record.folds, i ∈ fold.holdout) ↔
    item.values.length - p.folds.toNat * p.horizon.toNat ≤ i ∧ i < item.values.length
  train : ∀ fold ∈ record.folds,
    fold.run.train
      = (item.values.take fold.run.origin).drop (fold.run.origin - fold.run.train.length) ∧
    p.minContext ≤ fold.run.train.length ∧ (fold.run.train.length : Int) ≤ p.contextLimit
  truth : ∀ fold ∈ record.folds,
    (item.values.drop fold.run.origin).take p.horizon.toNat = fold.run.observedTruth.map some

theorem length_trainSlice {values : List (Option PyFloat)} {origin contextLimit : Nat}
    (h : origin ≤ values.length) :
    (trainSlice values origin contextLimit).length = min origin contextLimit := by
  unfold trainSlice
  rw [List.length_drop, List.length_take]
  omega

theorem map_some_filterMap {α : Type} {vs : List (Option α)} (h : vs.all Option.isSome = true) :
    (vs.filterMap id).map some = vs := by
  induction vs with
  | nil => rfl
  | cons v vs ih =>
    rw [List.all_cons, Bool.and_eq_true] at h
    obtain ⟨f, rfl⟩ := Option.isSome_iff_exists.mp h.1
    have hrest := ih h.2
    simp only [List.filterMap_cons, id_eq, List.map_cons]
    exact congrArg _ hrest

/-- The origins are a horizon apart. -/
theorem mem_holdouts {n folds horizon i : Nat} (hn : folds * horizon ≤ n) :
    (∃ k < folds, n - (folds - k) * horizon ≤ i ∧ i < n - (folds - k) * horizon + horizon) ↔
      n - folds * horizon ≤ i ∧ i < n := by
  constructor
  · rintro ⟨k, hk, hle, hlt⟩
    obtain ⟨d, rfl⟩ : ∃ d, folds = k + 1 + d := ⟨folds - (k + 1), by omega⟩
    have hd : k + 1 + d - k = d + 1 := by omega
    rw [hd] at hle hlt
    have hexp : (k + 1 + d) * horizon = k * horizon + (d + 1) * horizon := by ring
    have hone : (d + 1) * horizon = d * horizon + horizon := by ring
    omega
  · rintro ⟨hle, hlt⟩
    rcases Nat.eq_zero_or_pos horizon with rfl | hpos
    · omega
    · -- the index counted from the start of the holdouts decides which fold it is in
      obtain ⟨j, rfl⟩ : ∃ j, i = n - folds * horizon + j := ⟨i - (n - folds * horizon), by omega⟩
      have hj : j < folds * horizon := by omega
      have hk : j / horizon < folds := Nat.div_lt_of_lt_mul (by rw [Nat.mul_comm]; exact hj)
      obtain ⟨d, hd⟩ : ∃ d, folds = j / horizon + 1 + d := ⟨folds - (j / horizon + 1), by omega⟩
      have hsub : folds - j / horizon = d + 1 := by omega
      have hmul : folds * horizon = j / horizon * horizon + (d + 1) * horizon := by
        calc folds * horizon = (j / horizon + 1 + d) * horizon := by rw [← hd]
          _ = j / horizon * horizon + (d + 1) * horizon := by ring
      have hdecomp : j / horizon * horizon + j % horizon = j := by
        rw [Nat.mul_comm]
        exact Nat.div_add_mod j horizon
      have hmod : j % horizon < horizon := Nat.mod_lt j hpos
      refine ⟨j / horizon, hk, ?_⟩
      rw [hsub]
      omega

theorem splitsEnd_of_foldsOf {ar : Arithmetic} {provider : ForecastProvider}
    {p : EvaluationParameters} {item : EvaluationSeries} {record : SeriesRecord}
    (hp : 1 ≤ p.horizon ∧ 2 ≤ p.folds ∧ 2 ≤ p.minContext ∧ p.minContext ≤ p.contextLimit)
    (h : FoldsOf ar provider p.horizon.toNat p.folds.toNat p.minContext.toNat p.contextLimit.toNat
      item record) : SplitsEnd p item record := by
  obtain ⟨_, _, hmin, hle⟩ := hp
  have hhistory := h.history
  have hfold : ∀ fold ∈ record.folds, ∃ k < p.folds.toNat,
      ForecastsOf ar provider p.horizon.toNat p.folds.toNat p.contextLimit.toNat item k fold.run ∧
        fold.holdoutPoints = p.horizon.toNat := by
    intro fold hmem
    obtain ⟨k, hlt, hget⟩ := List.mem_iff_getElem.mp hmem
    exact ⟨k, h.length ▸ hlt, h.each k fold (List.getElem?_eq_some_iff.mpr ⟨hlt, hget⟩)⟩
  refine ⟨h.length, ?_, ?_, ?_, ?_⟩
  · rw [List.pairwise_iff_getElem]
    intro i j hi hj hij
    obtain ⟨ha, hna⟩ := h.each i _ (List.getElem?_eq_some_iff.mpr ⟨hi, rfl⟩)
    obtain ⟨hb, hnb⟩ := h.each j _ (List.getElem?_eq_some_iff.mpr ⟨hj, rfl⟩)
    have hjfolds : j < p.folds.toNat := h.length ▸ hj
    have hnext : (p.folds.toNat - j) * p.horizon.toNat + p.horizon.toNat
        ≤ (p.folds.toNat - i) * p.horizon.toNat := by
      calc (p.folds.toNat - j) * p.horizon.toNat + p.horizon.toNat
          = (p.folds.toNat - j + 1) * p.horizon.toNat := by ring
        _ ≤ (p.folds.toNat - i) * p.horizon.toNat := Nat.mul_le_mul_right _ (by omega)
    have hall : (p.folds.toNat - i) * p.horizon.toNat ≤ p.folds.toNat * p.horizon.toNat :=
      Nat.mul_le_mul_right _ (Nat.sub_le _ _)
    rw [Finset.disjoint_left]
    intro x hx hx'
    unfold FoldRecord.holdout at hx hx'
    rw [Finset.mem_Ico, ha.origin, hna] at hx
    rw [Finset.mem_Ico, hb.origin, hnb] at hx'
    omega
  · intro i
    rw [← mem_holdouts (show p.folds.toNat * p.horizon.toNat ≤ item.values.length by omega)]
    unfold FoldRecord.holdout
    constructor
    · rintro ⟨fold, hmem, hi⟩
      obtain ⟨k, hk, hf, hn⟩ := hfold fold hmem
      rw [Finset.mem_Ico, hf.origin, hn] at hi
      exact ⟨k, hk, hi⟩
    · rintro ⟨k, hk, hi⟩
      have hlt : k < record.folds.length := h.length.symm ▸ hk
      obtain ⟨hf, hn⟩ := h.each k _ (List.getElem?_eq_some_iff.mpr ⟨hlt, rfl⟩)
      refine ⟨record.folds[k], List.getElem_mem hlt, ?_⟩
      rw [Finset.mem_Ico, hf.origin, hn]
      exact hi
  · intro fold hmem
    obtain ⟨k, hk, hf, _⟩ := hfold fold hmem
    have hmul : (p.folds.toNat - k) * p.horizon.toNat ≤ p.folds.toNat * p.horizon.toNat :=
      Nat.mul_le_mul_right _ (Nat.sub_le _ _)
    have horigin := hf.origin
    have hbefore : fold.run.origin ≤ item.values.length := by omega
    have hlength : fold.run.train.length = min fold.run.origin p.contextLimit.toNat := by
      rw [hf.train]
      exact length_trainSlice hbefore
    refine ⟨?_, by omega, by omega⟩
    have hcut : fold.run.origin - fold.run.train.length
        = fold.run.origin - p.contextLimit.toNat := by omega
    rw [hcut]
    exact hf.train
  · intro fold hmem
    obtain ⟨k, _, hf, _⟩ := hfold fold hmem
    rw [hf.observed, map_some_filterMap hf.truth]

/-! ## §4. No look-ahead. -/

/-- The context that `run_forecast` hands to the provider of a fold. -/
def Handed (ar : Arithmetic) (run : FoldRun) (context : List PyFloat) : Prop :=
  ∃ imputed, forecastContext ar run.request = .ok (context, imputed)

/-- **Two folds see the same**: the provider is handed one context in both, and the
forecasts are the same.  What depends on the season is the same for one season. -/
structure SeesTheSame (ar : Arithmetic) (a b : FoldRun) (sameSeason : Prop) : Prop where
  context : ∃ context, Handed ar a context ∧ Handed ar b context
  candidatePoints : a.candidate.points = b.candidate.points
  candidate : a.predictions.candidate = b.predictions.candidate
  driftPoints : a.drift.points = b.drift.points
  robustDrift : a.predictions.robustDrift = b.predictions.robustDrift
  lastValue : a.predictions.lastValue = b.predictions.lastValue
  seasonalNaive : sameSeason → a.predictions.seasonalNaive = b.predictions.seasonalNaive
  scale : sameSeason → a.scale = b.scale

/-- The slice decides what a fold sees. -/
theorem seesTheSame_of_train {ar : Arithmetic} {provider : ForecastProvider}
    {horizon folds contextLimit k : Nat} {item item' : EvaluationSeries} {a b : FoldRun}
    (ha : ForecastsOf ar provider horizon folds contextLimit item k a)
    (hb : ForecastsOf ar provider horizon folds contextLimit item' k b)
    (htrain : a.train = b.train) :
    SeesTheSame ar a b (item.seasonLength = item'.seasonLength) := by
  have hvalues : a.request.values = b.request.values := by
    rw [ha.request, hb.request]
    exact htrain
  have hhorizon : a.request.horizon = b.request.horizon := by rw [ha.request, hb.request]
  have hquantiles : a.request.quantiles = b.request.quantiles := by rw [ha.request, hb.request]
  have hcandidate := runForecast_points_eq hvalues hhorizon hquantiles ha.candidate hb.candidate
  have hdrift := runForecast_points_eq hvalues hhorizon hquantiles ha.drift hb.drift
  refine ⟨?_, hcandidate, ?_, hdrift, ?_, ?_, ?_, ?_⟩
  · obtain ⟨context, _, hcontext, _, _⟩ := runForecast_ok ha.candidate
    obtain ⟨context', _, hcontext', _, _⟩ := runForecast_ok hb.candidate
    have hsame := forecastContext_eq hvalues hcontext hcontext'
    subst hsame
    exact ⟨context.1, ⟨context.2, hcontext⟩, ⟨context.2, hcontext'⟩⟩
  · obtain ⟨medians, hmedians, heq⟩ := ha.candidateMedian
    obtain ⟨medians', hmedians', heq'⟩ := hb.candidateMedian
    rw [hcandidate, hmedians'] at hmedians
    rw [heq, heq', Except.ok.inj hmedians]
  · obtain ⟨medians, hmedians, heq⟩ := ha.driftMedian
    obtain ⟨medians', hmedians', heq'⟩ := hb.driftMedian
    rw [hdrift, hmedians'] at hmedians
    rw [heq, heq', Except.ok.inj hmedians]
  · rw [ha.lastValue, hb.lastValue, htrain]
  · intro hseason
    rw [ha.seasonal, hb.seasonal, htrain, hseason]
  · intro hseason
    have hone := ha.scale
    have htwo := hb.scale
    rw [htrain, hseason, htwo] at hone
    exact (Except.ok.inj hone).symm

/-- **An evaluation does not look ahead.**  Two series of one length that agree
before the origin of a fold give the same fold, whatever comes after, and the folds of
every series split its end. -/
theorem evaluation_no_look_ahead (ar : Arithmetic) (provider : ForecastProvider)
    (p : EvaluationParameters) (series series' : List EvaluationSeries) (ev ev' : Evaluation)
    (h : evaluateWalkForward ar series provider p = .ok ev)
    (h' : evaluateWalkForward ar series' provider p = .ok ev') :
    (∀ item record item' record', Evaluated series ev item record →
      Evaluated series' ev' item' record' → item.values.length = item'.values.length →
      ∀ (k : Nat) fold fold', record.folds[k]? = some fold → record'.folds[k]? = some fold' →
      item.values.take fold.run.origin = item'.values.take fold.run.origin →
      fold.run.origin = fold'.run.origin ∧
      SeesTheSame ar fold.run fold'.run (item.seasonLength = item'.seasonLength)) ∧
    series.length = ev.series.length ∧
    ∀ item record, Evaluated series ev item record → SplitsEnd p item record := by
  obtain ⟨hp, hlength, hfolds⟩ := evaluateWalkForward_ok h
  obtain ⟨_, _, hfolds'⟩ := evaluateWalkForward_ok h'
  refine ⟨?_, hlength, fun item record hmem => splitsEnd_of_foldsOf hp (hfolds item record hmem)⟩
  intro item record item' record' hmem hmem' hsize k fold fold' hk hk' hagree
  obtain ⟨ha, _⟩ := (hfolds item record hmem).each k fold hk
  obtain ⟨hb, _⟩ := (hfolds' item' record' hmem').each k fold' hk'
  have horigin : fold.run.origin = fold'.run.origin := by
    rw [ha.origin, hb.origin, hsize]
  have htrain : fold.run.train = fold'.run.train := by
    rw [ha.train, hb.train, ← horigin]
    unfold trainSlice
    rw [hagree]
  exact ⟨horigin, seesTheSame_of_train ha hb htrain⟩

/-! Five observations, cut into two folds with three training points each. -/

def sampleParameters : EvaluationParameters := ⟨1, 2, 3, 3, py "synthetic"⟩

def sampleSeries : EvaluationSeries :=
  ⟨py "cpu", [some .one, some .half, some .one, some .half, some .one], 1⟩

def sampleEvaluation : Except ForecastExn Evaluation :=
  evaluateWalkForward .binary64 [sampleSeries] (robustDriftProvider .binary64) sampleParameters

theorem evaluation_no_look_ahead_sample : ∃ ev record, sampleEvaluation = .ok ev ∧
    Evaluated [sampleSeries] ev sampleSeries record ∧
    SplitsEnd sampleParameters sampleSeries record := by
  have hok : sampleEvaluation.toOption.isSome = true := by decide +kernel
  cases hev : sampleEvaluation with
  | error e =>
    rw [hev] at hok
    cases hok
  | ok ev =>
    obtain ⟨_, hlength, hsplits⟩ := evaluation_no_look_ahead .binary64
      (robustDriftProvider .binary64) sampleParameters [sampleSeries] [sampleSeries] ev ev hev hev
    obtain ⟨record, hrecord⟩ := List.length_eq_one_iff.mp hlength.symm
    have hmem : Evaluated [sampleSeries] ev sampleSeries record := by
      unfold Evaluated
      rw [hrecord]
      exact List.mem_singleton.mpr rfl
    exact ⟨ev, record, rfl, hmem, hsplits sampleSeries record hmem⟩

end Lyte
