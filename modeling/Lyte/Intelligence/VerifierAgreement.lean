import Mathlib.Tactic.Ring
import Lyte.Intelligence.BrowserVerifier

/-
  Lyte.Intelligence.VerifierAgreement — the browser and the risk engine agree.

  Both read off a bracket for every step: the engine as a largest and a smallest
  level on either side of the threshold, the browser as a loop that narrows
  `[0, 1]`, with complements above.  They agree on three quantiles, whichever of
  them are beyond the threshold or on it.

      breachBracket_eq_narrow   the two brackets are equal
      expectedRows_risk         so are the rows of the two loops
      decodeInspection_carries  what is accepted carries what the engine computes
-/

namespace Lyte

open JsValue

/-! ## §1. Brackets. -/

namespace PyFloat

theorem lt_eq_not_le {a b : PyFloat} (ha : a.isFinite = true) (hb : b.isFinite = true) :
    a.lt b = !b.le a := by
  rw [Bool.eq_iff_iff, Bool.not_eq_true', Bool.eq_false_iff, lt_iff ha hb, ne_eq, le_iff hb ha]
  exact not_le.symm

theorem eq_refl {a : PyFloat} (h : a.isFinite = true) : a.eq a = true :=
  Num.pyEq_refl (num_ne_nan h)

/-- What is equal to a finite number is finite. -/
theorem finite_of_eq {a b : PyFloat} (h : a.eq b = true) (hb : b.isFinite = true) :
    a.isFinite = true := by
  unfold eq at h
  rw [num_of_finite hb] at h
  by_cases ha : a.isFinite = true
  · exact ha
  · have he : a.exponent = 2047 := by
      unfold isFinite at ha
      simpa using ha
    unfold num at h
    rw [if_pos he] at h
    split at h
    · simp [Num.pyEq] at h
    · cases h

end PyFloat

/-- `Decimal(str(q))` of the three levels of the workbench. -/
structure DecimalLevels (ar : Arithmetic) : Prop where
  q10 : ar.toDecimal ⟨0x3FB999999999999A⟩ = ⟨1, 1⟩
  q50 : ar.toDecimal .half = ⟨5, 1⟩
  q90 : ar.toDecimal ⟨0x3FECCCCCCCCCCCCD⟩ = ⟨9, 1⟩

/-- The levels on one side of the threshold. -/
def flagged (x y z : Bool) : List PyFloat :=
  (if x then [⟨0x3FB999999999999A⟩] else []) ++ (if y then [.half] else []) ++
    (if z then [⟨0x3FECCCCCCCCCCCCD⟩] else [])

section Brackets

variable {ar : Arithmetic} (hlevels : DecimalLevels ar)

include hlevels

theorem level_q10 : level ar ⟨0x3FB999999999999A⟩ = 1 / 10 := by
  unfold level
  rw [hlevels.q10]
  decide +kernel

theorem level_q50 : level ar .half = 1 / 2 := by
  unfold level
  rw [hlevels.q50]
  decide +kernel

theorem level_q90 : level ar ⟨0x3FECCCCCCCCCCCCD⟩ = 9 / 10 := by
  unfold level
  rw [hlevels.q90]
  decide +kernel

/-- The largest level on a side. -/
theorem level_maxLevel (x y z : Bool) :
    level ar (maxLevel .zero (flagged x y z))
      = if z then 9 / 10 else if y then 1 / 2 else if x then 1 / 10 else 0 := by
  have hmax : maxLevel .zero (flagged x y z)
      = if z then ⟨0x3FECCCCCCCCCCCCD⟩ else if y then .half else if x then ⟨0x3FB999999999999A⟩
        else .zero := by
    revert x y z
    decide +kernel
  rw [hmax]
  cases z with
  | true => exact level_q90 hlevels
  | false =>
    cases y with
    | true => exact level_q50 hlevels
    | false =>
      cases x with
      | true => exact level_q10 hlevels
      | false => exact ar.toDecimal_zero

/-- The smallest level on a side. -/
theorem level_minLevel (x y z : Bool) :
    level ar (minLevel .one (flagged x y z))
      = if x then 1 / 10 else if y then 1 / 2 else if z then 9 / 10 else 1 := by
  have hmin : minLevel .one (flagged x y z)
      = if x then ⟨0x3FB999999999999A⟩ else if y then .half else if z then ⟨0x3FECCCCCCCCCCCCD⟩
        else .one := by
    revert x y z
    decide +kernel
  rw [hmin]
  cases x with
  | true => exact level_q10 hlevels
  | false =>
    cases y with
    | true => exact level_q50 hlevels
    | false =>
      cases z with
      | true => exact level_q90 hlevels
      | false => exact ar.toDecimal_one

omit hlevels in
theorem filter_workbench (p : PyFloat → Bool) (a b c : PyFloat) :
    ((workbenchQuantiles.zip [a, b, c]).filter (fun pair => p pair.2)).map Prod.fst
      = flagged (p a) (p b) (p c) := by
  unfold workbenchQuantiles flagged
  cases ha : p a <;> cases hb : p b <;> cases hc : p c <;> simp [ha, hb, hc]

/-- **The two brackets are equal**, on every tie between threshold and quantiles. -/
theorem breachBracket_eq_narrow (rule : ThresholdRule) (hT : rule.threshold.isFinite = true)
    {a b c : PyFloat} (ha : a.isFinite = true) (hb : b.isFinite = true) (hc : c.isFinite = true) :
    breachBracket ar rule (workbenchQuantiles.zip [a, b, c])
      = (decimalQuantiles.zip [a, b, c]).foldl (narrow rule) (0, 1) := by
  have hround : mathRound (1 / 10 * 100) = 10 ∧ mathRound (1 / 2 * 100) = 50 ∧
      mathRound (9 / 10 * 100) = 90 := by decide +kernel
  obtain ⟨h10, h50, h90⟩ := hround
  unfold breachBracket
  cases hdir : rule.direction with
  | above =>
    simp only [filter_workbench (fun v => v.le rule.threshold),
      filter_workbench (fun v => rule.threshold.lt v), level_maxLevel hlevels, level_minLevel hlevels,
      PyFloat.lt_eq_not_le hT ha, PyFloat.lt_eq_not_le hT hb, PyFloat.lt_eq_not_le hT hc]
    simp only [decimalQuantiles, List.zip_cons_cons, List.zip_nil_left, List.foldl_cons,
      List.foldl_nil, narrow, hdir, h10, h50, h90]
    cases a.le rule.threshold <;> cases b.le rule.threshold <;> cases c.le rule.threshold <;>
      decide +kernel
  | below =>
    simp only [filter_workbench (fun v => v.lt rule.threshold),
      filter_workbench (fun v => rule.threshold.le v), level_maxLevel hlevels, level_minLevel hlevels,
      PyFloat.lt_eq_not_le ha hT, PyFloat.lt_eq_not_le hb hT, PyFloat.lt_eq_not_le hc hT]
    simp only [decimalQuantiles, List.zip_cons_cons, List.zip_nil_left, List.foldl_cons,
      List.foldl_nil, narrow, hdir, PyFloat.lt_eq_not_le ha hT, PyFloat.lt_eq_not_le hb hT,
      PyFloat.lt_eq_not_le hc hT]
    cases rule.threshold.le a <;> cases rule.threshold.le b <;> cases rule.threshold.le c <;>
      decide +kernel

theorem keys_workbench : workbenchQuantiles.map (quantileKey ar) = quantileKeys := by
  unfold workbenchQuantiles quantileKeys quantileKey
  simp only [List.map_cons, List.map_nil, hlevels.q10, hlevels.q50, hlevels.q90]
  decide +kernel

end Brackets

/-! ## §2. Rows. -/

/-- A row of the browser as a step of the engine. -/
def ExpectedRow.risk (row : ExpectedRow) : RiskStep := ⟨row.step, row.lo, row.hi, row.crosses⟩

/-- Three numbers as the browser requires them. -/
structure Ordered (values : List PyFloat) (a b c : PyFloat) : Prop where
  eq : values = [a, b, c]
  finite : a.isFinite = true ∧ b.isFinite = true ∧ c.isFinite = true
  order : a.le b = true ∧ b.le c = true

theorem pointValues_ordered {point : JsValue} {values : List PyFloat}
    (h : pointValues point = some values) : ∃ a b c, Ordered values a b c := by
  unfold pointValues at h
  split at h
  · split at h
    · split at h
      · next a b c _ _ _ =>
        split at h
        · next hall =>
          cases h
          simp only [Bool.and_eq_true] at hall
          exact ⟨a, b, c, rfl, ⟨hall.1.1.1.1, hall.1.1.1.2, hall.1.1.2⟩, hall.1.2, hall.2⟩
        · cases h
      · cases h
    · cases h
  · cases h

/-- The points that an envelope carries, as the engine reads points. -/
def carriedPoints : Nat → List JsValue → Option (List ForecastPoint)
  | _, [] => some []
  | step, point :: points => do
      let values ← pointValues point
      let rest ← carriedPoints (step + 1) points
      return ⟨step, quantileKeys.zip values⟩ :: rest

section Rows

variable {ar : Arithmetic} (hlevels : DecimalLevels ar) {rule : ThresholdRule}
variable (hT : rule.threshold.isFinite = true)

include hlevels hT

/-- **A step of the engine is a row of the browser.** -/
theorem riskStep_workbench {n : Nat} {values : List PyFloat} {a b c : PyFloat}
    (h : Ordered values a b c) :
    riskStep ar workbenchQuantiles rule n ⟨n, quantileKeys.zip values⟩
      = .ok (expectedRow rule n values).risk := by
  obtain ⟨rfl, ⟨ha, hb, hc⟩, hab, hbc⟩ := h
  have hvalues : stepValues ar workbenchQuantiles ⟨n, quantileKeys.zip [a, b, c]⟩
      = some [a, b, c] := by
    unfold stepValues
    rw [keys_workbench hlevels]
    simp [quantileKeys, List.lookup_cons, py_beq]
  have hmedian : (quantileKeys.zip [a, b, c]).lookup (quantileKey ar .half) = some b := by
    have hkey : quantileKey ar .half = py "q50" := by
      unfold quantileKey
      rw [hlevels.q50]
      decide +kernel
    rw [hkey]
    simp [quantileKeys, List.lookup_cons, py_beq]
  unfold riskStep
  simp only [ne_eq, not_true_eq_false, if_false, hvalues]
  have hok : ([a, b, c].any (fun v => !v.isFinite) || !PyFloat.ascending [a, b, c]) = false := by
    simp [PyFloat.ascending, PyFloat.neighbours, ha, hb, hc, hab, hbc]
  rw [hok, breachBracket_eq_narrow hlevels rule hT ha hb hc]
  unfold medianCrosses expectedRow ExpectedRow.risk
  rw [hmedian]
  rfl

/-- **The rows of the two loops are equal.** -/
theorem expectedRows_risk {n : Nat} {points steps : List JsValue} {rows : List ExpectedRow}
    (h : expectedRows rule n points steps = some rows) :
    ∃ carried, carriedPoints n points = some carried ∧
      riskSteps ar workbenchQuantiles rule n carried = .ok (rows.map ExpectedRow.risk) ∧
      List.Forall₂ (fun observed row => stepAccepted observed row = true) steps rows := by
  induction points generalizing n steps rows with
  | nil =>
    cases steps with
    | nil =>
      cases h
      exact ⟨[], rfl, rfl, .nil⟩
    | cons o steps => cases h
  | cons point points ih =>
    cases steps with
    | nil => cases h
    | cons o steps =>
      unfold expectedRows at h
      split at h
      · cases h
      · next values hvalues =>
        simp only at h
        split at h
        · next haccepted =>
          obtain ⟨rest, hrest, rfl⟩ := Option.map_eq_some_iff.mp h
          obtain ⟨carried, hcarried, hrows, hsteps⟩ := ih hrest
          obtain ⟨a, b, c, hordered⟩ := pointValues_ordered hvalues
          rw [Bool.and_eq_true] at haccepted
          refine ⟨⟨n, quantileKeys.zip values⟩ :: carried, ?_, ?_, .cons haccepted.2 hsteps⟩
          · unfold carriedPoints
            rw [hvalues, hcarried]
            rfl
          · unfold riskSteps
            rw [riskStep_workbench hlevels hT hordered, hrows]
            rfl
        · cases h

end Rows

/-! ## §3. What an accepted envelope carries. -/

/-- An entry of `risk.steps` carries a step of the report. -/
structure CarriesStep (observed : JsValue) (row : RiskStep) : Prop where
  step : isNumber (get (py "step") (some observed)) row.step = true
  lower : close (get (py "model_implied_breach_lower") (some observed)) row.breachLower = true
  upper : close (get (py "model_implied_breach_upper") (some observed)) row.breachUpper = true
  median : isBool (get (py "median_crosses") (some observed)) row.medianCrosses = true

/-- **A risk window carries a report**: its steps, its alert steps and the bracket over the
horizon, bounds up to the tolerance of the browser. -/
structure Carries (risk : Option JsValue) (report : RiskReport) : Prop where
  steps : ∃ items, elements (get (py "steps") risk) = some items ∧
    List.Forall₂ CarriesStep items report.steps
  possible : isStep (get (py "earliest_possible_alert_step") risk)
    report.earliestPossibleAlertStep = true
  supported : isStep (get (py "earliest_supported_alert_step") risk)
    report.earliestSupportedAlertStep = true
  median : isStep (get (py "first_median_crossing_step") risk)
    report.firstMedianCrossingStep = true
  lower : close (get (py "lower") (get (py "any_breach_over_horizon") risk))
    report.anyBreachOverHorizon.lower = true
  upper : close (get (py "upper") (get (py "any_breach_over_horizon") risk))
    report.anyBreachOverHorizon.upper = true

theorem firstStep_risk (p : RiskStep → Bool) (rows : List ExpectedRow) :
    firstStep (fun row => p row.risk) rows
      = ((rows.map ExpectedRow.risk).find? p).map RiskStep.step := by
  unfold firstStep
  rw [List.find?_map, Option.map_map]
  rfl

theorem foldl_hi (rows : List ExpectedRow) (x : Rat) :
    rows.foldl (fun sum row => sum + row.hi) x = x + (rows.map ExpectedRow.hi).sum := by
  induction rows generalizing x with
  | nil => simp
  | cons row rows ih =>
    rw [List.foldl_cons, ih, List.map_cons, List.sum_cons]
    ring

/-- What the browser compares with the rows are the fields of the report. -/
theorem windowAccepted_report {ar : Arithmetic} {rule : ThresholdRule} {rows : List ExpectedRow}
    {risk : Option JsValue} {report : RiskReport} (hsteps : report.steps = rows.map ExpectedRow.risk)
    (hpossible : report.earliestPossibleAlertStep
      = firstAtOrAbove ar rule RiskStep.breachUpper report.steps)
    (hsupported : report.earliestSupportedAlertStep
      = firstAtOrAbove ar rule RiskStep.breachLower report.steps)
    (hmedian : report.firstMedianCrossingStep
      = (report.steps.find? RiskStep.medianCrosses).map RiskStep.step)
    (hany : report.anyBreachOverHorizon = anyBreach report.steps) :
    windowAccepted (level ar rule.alertLevel) rows risk = true ↔
      isStep (get (py "earliest_possible_alert_step") risk) report.earliestPossibleAlertStep = true ∧
      isStep (get (py "earliest_supported_alert_step") risk) report.earliestSupportedAlertStep
        = true ∧
      isStep (get (py "first_median_crossing_step") risk) report.firstMedianCrossingStep = true ∧
      close (get (py "lower") (get (py "any_breach_over_horizon") risk))
        report.anyBreachOverHorizon.lower = true ∧
      close (get (py "upper") (get (py "any_breach_over_horizon") risk))
        report.anyBreachOverHorizon.upper = true ∧
      isString (get (py "method") (get (py "any_breach_over_horizon") risk)) riskMethod = true := by
  have hlo : (rows.map ExpectedRow.risk).map RiskStep.breachLower = rows.map ExpectedRow.lo := by
    rw [List.map_map]
    rfl
  have hhi : (rows.map ExpectedRow.risk).map RiskStep.breachUpper = rows.map ExpectedRow.hi := by
    rw [List.map_map]
    rfl
  have hupper := firstStep_risk (fun row => level ar rule.alertLevel ≤ row.breachUpper) rows
  have hlower := firstStep_risk (fun row => level ar rule.alertLevel ≤ row.breachLower) rows
  have hcross := firstStep_risk RiskStep.medianCrosses rows
  rw [hpossible, hsupported, hmedian, hany, hsteps]
  unfold windowAccepted firstAtOrAbove anyBreach
  rw [← hupper, ← hlower, ← hcross, hlo, hhi, foldl_hi, zero_add]
  simp only [Bool.and_eq_true, and_assoc]
  rfl

/-- **A report carries what the browser compared.** -/
theorem carries_of_windowAccepted {ar : Arithmetic} {rule : ThresholdRule} {rows : List ExpectedRow}
    {risk : Option JsValue} {items : List JsValue} {report : RiskReport}
    (hitems : elements (get (py "steps") risk) = some items)
    (hrows : List.Forall₂ (fun observed row => stepAccepted observed row = true) items rows)
    (hwindow : windowAccepted (level ar rule.alertLevel) rows risk = true)
    (hsteps : report.steps = rows.map ExpectedRow.risk)
    (hpossible : report.earliestPossibleAlertStep
      = firstAtOrAbove ar rule RiskStep.breachUpper report.steps)
    (hsupported : report.earliestSupportedAlertStep
      = firstAtOrAbove ar rule RiskStep.breachLower report.steps)
    (hmedian : report.firstMedianCrossingStep
      = (report.steps.find? RiskStep.medianCrosses).map RiskStep.step)
    (hany : report.anyBreachOverHorizon = anyBreach report.steps) : Carries risk report := by
  obtain ⟨h1, h2, h3, h4, h5, _⟩ :=
    (windowAccepted_report hsteps hpossible hsupported hmedian hany).mp hwindow
  refine ⟨⟨items, hitems, ?_⟩, h1, h2, h3, h4, h5⟩
  rw [hsteps, List.forall₂_map_right_iff]
  apply hrows.imp
  intro observed row hrow
  unfold stepAccepted at hrow
  simp only [Bool.and_eq_true] at hrow
  exact ⟨hrow.1.1.1, hrow.1.1.2, hrow.1.2, hrow.2⟩

/-- The rule of an accepted payload is the one that was asked for. -/
theorem readRule_accepted {input : Option JsValue} {requested : WorkbenchRequest}
    {rule : ThresholdRule} (hrequest : requestAccepted input requested = true)
    (hrule : readRule input = some rule) :
    rule.threshold.eq requested.rule.threshold = true ∧
      rule.direction = requested.rule.direction ∧
      rule.alertLevel.eq requested.rule.alertLevel = true := by
  unfold requestAccepted at hrequest
  simp only [Bool.and_eq_true] at hrequest
  obtain ⟨⟨⟨_, hthreshold⟩, hdirection⟩, halert⟩ := hrequest
  unfold readRule at hrule
  simp only at hrule
  split at hrule
  · next threshold alertLevel ht ha =>
    cases hrule
    rw [ht] at hthreshold
    rw [ha] at halert
    refine ⟨hthreshold, ?_, halert⟩
    unfold isString at hdirection ⊢
    split at hdirection
    · next t _ =>
      rw [eq_of_beq hdirection]
      cases requested.rule.direction with
      | above => rfl
      | below => simp [Direction.value]
    · cases hdirection
  · cases hrule

/-- **What the browser accepts carries what the engine computes** from the points and the rule
of the payload: the loop of the engine returns on them, and every report of a forecast with
these points is the one that the risk window carries. -/
theorem decodeInspection_carries {ar : Arithmetic} (hlevels : DecimalLevels ar)
    {parse : PyStr → Option JsValue} {envelope : Option JsValue} {requested : WorkbenchRequest}
    {payload : JsValue} (h : decodeInspection ar parse envelope requested = some payload) :
    ∃ rule items points rows,
      readRule (get (py "request") (some payload)) = some rule ∧
      rule.threshold.eq requested.rule.threshold = true ∧
      rule.direction = requested.rule.direction ∧
      rule.alertLevel.eq requested.rule.alertLevel = true ∧
      elements (get (py "points") (get (py "forecast") (some payload))) = some items ∧
      carriedPoints 1 items = some points ∧
      riskSteps ar workbenchQuantiles rule 1 points = .ok rows ∧
      (∀ forecast receiptSha256,
        Carries (get (py "risk_window") (get (py "forecast") (some payload)))
          (riskReport ar forecast rule rows receiptSha256)) ∧
      ∀ forecast report, forecast.points = points →
        forecast.receipt.quantiles = workbenchQuantiles →
        deriveRiskWindow ar forecast rule = .ok report →
        report.steps = rows ∧
          Carries (get (py "risk_window") (get (py "forecast") (some payload))) report := by
  unfold decodeInspection at h
  obtain ⟨text, _, h⟩ := Option.bind_eq_some_iff.mp h
  obtain ⟨parsed, _, h⟩ := Option.bind_eq_some_iff.mp h
  split at h
  · next haccepted =>
    cases h
    unfold payloadAccepted at haccepted
    simp only [Bool.and_eq_true] at haccepted
    obtain ⟨⟨⟨_, hrequest⟩, _⟩, haccepted⟩ := haccepted
    split at haccepted
    · next rule items observed hrule hitems hobserved =>
      simp only [Bool.and_eq_true] at haccepted
      obtain ⟨_, haccepted⟩ := haccepted
      split at haccepted
      · next rows hrows =>
        rw [Bool.and_eq_true] at haccepted
        obtain ⟨hthreshold, hdirection, halert⟩ := readRule_accepted hrequest hrule
        have hT := PyFloat.finite_of_eq hthreshold requested.threshold_finite
        obtain ⟨points, hpoints, hsteps, hall⟩ := expectedRows_risk hlevels hT hrows
        refine ⟨rule, items, points, rows.map ExpectedRow.risk, hrule, hthreshold, hdirection,
          halert, hitems, hpoints, hsteps, ?_, ?_⟩
        · intro forecast receiptSha256
          exact carries_of_windowAccepted hobserved hall haccepted.1 rfl rfl rfl rfl rfl
        · intro forecast report hpts hq hreport
          obtain ⟨_, rows', receiptSha256, digest, hrows', _, _, rfl⟩ :=
            deriveRiskWindow_report hreport
          rw [hpts, hq, hsteps] at hrows'
          cases hrows'
          exact ⟨rfl, carries_of_windowAccepted hobserved hall haccepted.1 rfl rfl rfl rfl rfl⟩
      · cases haccepted
    · cases haccepted
  · cases h

end Lyte
