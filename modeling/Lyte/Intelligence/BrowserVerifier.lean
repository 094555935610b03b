import Lyte.Intelligence.ForecastInspection

/-
  Lyte.Intelligence.BrowserVerifier — what the workbench accepts.

  `decodeInspection` is the check that the browser makes before it shows an
  envelope: the digest of the bytes, the binding to the request, and the risk
  window, which it computes again from the forecast points.  A failed assertion
  and a TypeError are both `none`.

  Values are what `JSON.parse` returns, so that every number is a double.  The
  bounds of the recomputation are exact decimals, as they are in the risk engine.
-/

namespace Lyte

/-! ## §1. Values. -/

/-- A value of the browser. -/
inductive JsValue where
  | null
  | bool (b : Bool)
  | number (x : PyFloat)
  | string (s : PyStr)
  | array (items : List JsValue)
  | object (fields : List (PyStr × JsValue))

namespace JsValue

/-- `v?.[key]`. -/
def get (key : PyStr) : Option JsValue → Option JsValue
  | some (.object fields) => fields.lookup key
  | _ => none

def elements : Option JsValue → Option (List JsValue)
  | some (.array items) => some items
  | _ => none

/-- `v === "…"`. -/
def isString (v : Option JsValue) (s : PyStr) : Bool :=
  match v with
  | some (.string t) => t == s
  | _ => false

/-- `v === false`, `v === true`. -/
def isBool (v : Option JsValue) (b : Bool) : Bool :=
  match v with
  | some (.bool c) => c == b
  | _ => false

/-- `v === n`, of an exact number. -/
def isNumber (v : Option JsValue) (x : Rat) : Bool :=
  match v with
  | some (.number f) => f.num.pyEq (.fin x)
  | _ => false

/-- `v === step`, where `step` is a number or null. -/
def isStep (v : Option JsValue) (step : Option Nat) : Bool :=
  match step with
  | some n => isNumber v n
  | none => match v with
      | some .null => true
      | _ => false

/-- `a === b`: objects and arrays that were parsed apart are never the same. -/
def strictEq : Option JsValue → Option JsValue → Bool
  | some .null, some .null => true
  | some (.bool a), some (.bool b) => a == b
  | some (.number a), some (.number b) => a.eq b
  | some (.string a), some (.string b) => a == b
  | _, _ => false

/-- `JSON.stringify` writes null. -/
def isNullText : JsValue → Bool
  | .null => true
  | .number x => !x.isFinite
  | _ => false

/-- `JSON.stringify(a) === JSON.stringify(b)` on numbers: `-0` is written as `0`, and what is
not finite as null. -/
def sameNumber (x : PyFloat) (b : JsValue) : Bool :=
  if x.isFinite then
    match b with
    | .number y => y.isFinite && x.eq y
    | _ => false
  else b.isNullText

mutual
/-- `same`: `JSON.stringify(a) === JSON.stringify(b)`. -/
def same : JsValue → JsValue → Bool
  | .null, b => b.isNullText
  | .bool x, b => match b with
      | .bool y => x == y
      | _ => false
  | .number x, b => sameNumber x b
  | .string s, b => match b with
      | .string t => s == t
      | _ => false
  | .array xs, b => match b with
      | .array ys => sameItems xs ys
      | _ => false
  | .object xs, b => match b with
      | .object ys => sameFields xs ys
      | _ => false

def sameItems : List JsValue → List JsValue → Bool
  | [], ys => ys.isEmpty
  | x :: xs, ys => match ys with
      | [] => false
      | y :: ys => x.same y && sameItems xs ys

def sameFields : List (PyStr × JsValue) → List (PyStr × JsValue) → Bool
  | [], ys => ys.isEmpty
  | (k, x) :: xs, ys => match ys with
      | [] => false
      | (l, y) :: ys => k == l && x.same y && sameFields xs ys
end

/-- `/^[a-f0-9]{n}$/.test(v ?? "")`: the pattern is matched against `String(v)`, which for an
array of one element is that of the element, and no number is written with so many digits. -/
def hexTest (n : Nat) : JsValue → Bool
  | .string s => s.length == n && s.all isLowerHex
  | .array [v] => hexTest n v
  | _ => false

def isHex (n : Nat) (v : Option JsValue) : Bool := v.any (hexTest n)

/-- `close(v, x)`. -/
def close (v : Option JsValue) (x : Rat) : Bool :=
  match v with
  | some (.number f) => f.isFinite && decide (|f.value - x| ≤ 1 / 10 ^ 12)
  | _ => false

end JsValue

/-! ## §2. The request. -/

/-- What the workbench asks for. -/
structure WorkbenchRequest where
  signalId : PyStr
  values : List (Option PyFloat)
  horizon : Nat
  rule : ThresholdRule
  finite : ∀ x ∈ values, ∀ v, x = some v → v.isFinite = true
  horizon_pos : 1 ≤ horizon
  horizon_le : horizon ≤ 1024
  threshold_finite : rule.threshold.isFinite = true
  alert_finite : rule.alertLevel.isFinite = true
  alert_pos : PyFloat.zero.lt rule.alertLevel = true
  alert_le : rule.alertLevel.le .one = true

/-- An observation in the browser. -/
def observation (v : Option PyFloat) : JsValue :=
  match v with
  | some x => .number x
  | none => .null

/-- What arrives of a number: `JSON.stringify` writes `-0` as `0`. -/
def PyFloat.sent (x : PyFloat) : PyFloat := if x.eq .zero then .zero else x

/-- The request as the service receives it. -/
def WorkbenchRequest.body (r : WorkbenchRequest) : ForecastBody where
  signalId := r.signalId
  values := r.values.map (Option.map PyFloat.sent)
  horizon := r.horizon
  quantiles := workbenchQuantiles
  provider := .baseline
  risk := some ⟨r.rule.threshold.sent, r.rule.direction, r.rule.alertLevel.sent⟩

/-! ## §3. The bytes. -/

/-- `s.length`, in UTF-16 units. -/
def utf16Length (s : PyStr) : Nat := (s.map (fun c => if c < 0x10000 then 1 else 2)).sum

/-- `new TextEncoder().encode(s)`: a surrogate by itself becomes U+FFFD. -/
def textEncode (s : PyStr) : List UInt8 :=
  (s.map (fun c => if isSurrogate c then 0xFFFD else c)).flatMap utf8Bytes

open JsValue

/-- The assertions about the envelope; the text that it carries. -/
def envelopeText (rt : Runtime) (envelope : Option JsValue) : Option PyStr :=
  match get (py "canonical_json") envelope with
  | some (.string text) =>
      if isString (get (py "schema") envelope) (py "szl.lyte.forecast-inspection-envelope/v1") &&
          isString (get (py "hash_semantics") envelope)
            (py "CONTENT_INTEGRITY_NOT_SIGNATURE_OR_ACCURACY") &&
          decide (utf16Length text ≤ 1000000) && isHex 64 (get (py "sha256") envelope) &&
          isString (get (py "sha256") envelope) (rt.sha256 (textEncode text)) then
        some text
      else none
  | _ => none

/-! ## §4. The bindings. -/

def quantileValues : JsValue := .array (workbenchQuantiles.map .number)

/-- Schema, authority and source of the payload. -/
def authorityAccepted (payload : Option JsValue) : Bool :=
  isString (get (py "schema") payload) (py "szl.lyte.forecast-inspection/v1") &&
  isBool (get (py "persisted") payload) false &&
  isString (get (py "execution_authority") payload) (py "NONE") &&
  isString (get (py "input_provenance") payload)
    (py "CALLER_SUPPLIED_NOT_INDEPENDENTLY_VERIFIED") &&
  isString (get (py "repository") (get (py "source") payload)) (py "szl-holdings/lyte-services") &&
  isHex 40 (get (py "revision") (get (py "source") payload))

/-- The payload answers the request. -/
def requestAccepted (input : Option JsValue) (requested : WorkbenchRequest) : Bool :=
  let risk := get (py "risk") input
  isString (get (py "signal_id") input) requested.signalId &&
  (get (py "values") input).any (same · (.array (requested.values.map observation))) &&
  isNumber (get (py "horizon") input) requested.horizon &&
  (get (py "quantiles") input).any (same · quantileValues) &&
  isString (get (py "provider") input) (py "baseline") &&
  strictEq (get (py "threshold") risk) (some (.number requested.rule.threshold)) &&
  isString (get (py "direction") risk) requested.rule.direction.value &&
  strictEq (get (py "alert_level") risk) (some (.number requested.rule.alertLevel))

/-- The advisory boundary and the contracts of forecast, receipt and risk window. -/
def contractsAccepted (input forecast : Option JsValue) : Bool :=
  let risk := get (py "risk_window") forecast
  let receipt := get (py "receipt") forecast
  isString (get (py "execution_authority") forecast) (py "NONE") &&
  isString (get (py "execution_authority") risk) (py "NONE") &&
  isBool (get (py "production_admitted") risk) false &&
  isString (get (py "calibration_status") risk) (py "NOT_ESTABLISHED") &&
  isString (get (py "contract") risk) riskContract &&
  isString (get (py "time_unit") risk) (py "FORECAST_STEPS_NOT_WALL_CLOCK") &&
  isString (get (py "contract") receipt) contractVersion &&
  isString (get (py "provider") receipt) (py "szl.robust-drift/v1") &&
  strictEq (get (py "signal_id") receipt) (get (py "signal_id") input) &&
  strictEq (get (py "horizon") receipt) (get (py "horizon") input) &&
  (get (py "quantiles") receipt).any (same · quantileValues) &&
  strictEq (get (py "signal_id") risk) (get (py "signal_id") input) &&
  strictEq (get (py "provider") risk) (get (py "provider") receipt)

/-- The rule of the risk window is that of the request. -/
def ruleAccepted (input risk : Option JsValue) (direction : Direction) : Bool :=
  let asked := get (py "risk") input
  let rule := get (py "rule") risk
  strictEq (get (py "threshold") rule) (get (py "threshold") asked) &&
  strictEq (get (py "direction") rule) (get (py "direction") asked) &&
  strictEq (get (py "alert_level") rule) (get (py "alert_level") asked) &&
  isString (get (py "event_semantics") risk) (match direction with
    | .above => py "STRICT_GREATER_THAN"
    | .below => py "STRICT_LESS_THAN")

/-- The digests that the evidence names. -/
def digestsAccepted (receipt risk : Option JsValue) : Bool :=
  isHex 64 (get (py "input_sha256") receipt) && isHex 64 (get (py "raw_input_sha256") receipt) &&
  isHex 64 (get (py "output_sha256") receipt) &&
  strictEq (get (py "forecast_output_sha256") risk) (get (py "output_sha256") receipt) &&
  isHex 64 (get (py "forecast_receipt_sha256") risk) && isHex 64 (get (py "report_sha256") risk)

/-! ## §5. The recomputation. -/

/-- `input.risk`. -/
def readRule (input : Option JsValue) : Option ThresholdRule :=
  let risk := get (py "risk") input
  match get (py "threshold") risk, get (py "alert_level") risk with
  | some (.number threshold), some (.number alertLevel) =>
      some ⟨threshold,
        if isString (get (py "direction") risk) (py "above") then .above else .below, alertLevel⟩
  | _, _ => none

/-- A row of `expected`. -/
structure ExpectedRow where
  step : Nat
  lo : Rat
  hi : Rat
  crosses : Bool

/-- `Math.round` of an exact number. -/
def mathRound (x : Rat) : Int := (x + 1 / 2).floor

/-- One round of the loop over `Q`. -/
def narrow (rule : ThresholdRule) (bracket : Rat × Rat) (pair : Rat × PyFloat) : Rat × Rat :=
  let (lo, hi) := bracket
  let (q, value) := pair
  match rule.direction with
  | .above =>
      let complement : Rat := (100 - mathRound (q * 100)) / 100
      if value.le rule.threshold then (lo, min hi complement) else (max lo complement, hi)
  | .below => if value.lt rule.threshold then (max lo q, hi) else (lo, min hi q)

/-- `Q`, as the decimals that they are. -/
def decimalQuantiles : List Rat := [1 / 10, 1 / 2, 9 / 10]

/-- `KEYS`. -/
def quantileKeys : List PyStr := [py "q10", py "q50", py "q90"]

/-- The values of a point, if it has exactly the three quantiles and they are numbers, finite
and in order. -/
def pointValues (point : JsValue) : Option (List PyFloat) :=
  match get (py "quantiles") (some point) with
  | some (.object row) =>
      if (row.map Prod.fst).isPerm quantileKeys then
        match row.lookup (py "q10"), row.lookup (py "q50"), row.lookup (py "q90") with
        | some (.number a), some (.number b), some (.number c) =>
            if a.isFinite && b.isFinite && c.isFinite && a.le b && b.le c then some [a, b, c]
            else none
        | _, _, _ => none
      else none
  | _ => none

/-- The row that the values of a point lead to. -/
def expectedRow (rule : ThresholdRule) (step : Nat) (values : List PyFloat) : ExpectedRow :=
  let bracket := (decimalQuantiles.zip values).foldl (narrow rule) (0, 1)
  let median := values.getD 1 .zero
  ⟨step, bracket.1, bracket.2, match rule.direction with
    | .above => rule.threshold.lt median
    | .below => median.lt rule.threshold⟩

/-- What `risk.steps[index]` carries is the row. -/
def stepAccepted (observed : JsValue) (row : ExpectedRow) : Bool :=
  let observed := some observed
  isNumber (get (py "step") observed) row.step &&
  close (get (py "model_implied_breach_lower") observed) row.lo &&
  close (get (py "model_implied_breach_upper") observed) row.hi &&
  isBool (get (py "median_crosses") observed) row.crosses

/-- The loop over the points, with the steps of the risk window beside them. -/
def expectedRows (rule : ThresholdRule) :
    Nat → List JsValue → List JsValue → Option (List ExpectedRow)
  | _, [], [] => some []
  | step, point :: points, observed :: steps =>
      match pointValues point with
      | none => none
      | some values =>
          let row := expectedRow rule step values
          if isNumber (get (py "step") (some point)) step && stepAccepted observed row then
            (expectedRows rule (step + 1) points steps).map (row :: ·)
          else none
  | _, _, _ => none

/-- `first(expected, predicate)`. -/
def firstStep (predicate : ExpectedRow → Bool) (rows : List ExpectedRow) : Option Nat :=
  (rows.find? predicate).map ExpectedRow.step

/-- The alert steps and the bracket over the horizon. -/
def windowAccepted (alertLevel : Rat) (rows : List ExpectedRow) (risk : Option JsValue) : Bool :=
  let any := get (py "any_breach_over_horizon") risk
  isStep (get (py "earliest_possible_alert_step") risk)
    (firstStep (fun row => alertLevel ≤ row.hi) rows) &&
  isStep (get (py "earliest_supported_alert_step") risk)
    (firstStep (fun row => alertLevel ≤ row.lo) rows) &&
  isStep (get (py "first_median_crossing_step") risk) (firstStep ExpectedRow.crosses rows) &&
  close (get (py "lower") any) (maxBound (rows.map ExpectedRow.lo)) &&
  close (get (py "upper") any) (min 1 (rows.foldl (fun sum row => sum + row.hi) 0)) &&
  isString (get (py "method") any) riskMethod

/-- The assertions about the payload. -/
def payloadAccepted (ar : Arithmetic) (payload : JsValue) (requested : WorkbenchRequest) : Bool :=
  let payload := some payload
  let input := get (py "request") payload
  let forecast := get (py "forecast") payload
  let risk := get (py "risk_window") forecast
  authorityAccepted payload && requestAccepted input requested &&
    contractsAccepted input forecast &&
    match readRule input, elements (get (py "points") forecast),
      elements (get (py "steps") risk) with
    | some rule, some points, some steps =>
        ruleAccepted input risk rule.direction &&
          isNumber (get (py "horizon") input) points.length &&
          isNumber (get (py "horizon") input) steps.length &&
          match expectedRows rule 1 points steps with
          | some rows =>
              windowAccepted (level ar rule.alertLevel) rows risk &&
                digestsAccepted (get (py "receipt") forecast) risk
          | none => false
    | _, _, _ => false

/-- `decodeInspection`, with `JSON.parse`. -/
def decodeInspection (ar : Arithmetic) (parse : PyStr → Option JsValue)
    (envelope : Option JsValue) (requested : WorkbenchRequest) : Option JsValue := do
  let text ← envelopeText ar.toRuntime envelope
  let payload ← parse text
  if payloadAccepted ar payload requested then some payload else none

end Lyte
