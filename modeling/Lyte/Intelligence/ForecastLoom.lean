import Lyte.Domain.Canonical
import Mathlib.Data.List.Sort
import Mathlib.Algebra.Order.Ring.Rat

/-
  Lyte.Intelligence.ForecastLoom — governed forecasts.

  `runForecast` checks a request, fills the gaps of its context, asks a provider
  for quantiles of every step and refuses what is incomplete, not finite or
  crossing.  A provider is any function of its arguments; the baseline of the
  source is `RobustDriftProvider`.

  Binary64 arithmetic is a parameter (`Arithmetic`): comparisons are exact
  (`PyFloat.num`), results of operations are whatever the interpreter computes.
-/

namespace Lyte

/-! ## §1. Numbers. -/

/-- A non-negative `decimal.Decimal`: `coefficient · 10^(-places)`. -/
structure Decimal where
  coefficient : Nat
  places : Nat
deriving DecidableEq

def Decimal.value (x : Decimal) : Rat := mkRat x.coefficient (10 ^ x.places)

/-- What the interpreter computes with floats. -/
structure Arithmetic extends Runtime where
  add : PyFloat → PyFloat → PyFloat
  sub : PyFloat → PyFloat → PyFloat
  mul : PyFloat → PyFloat → PyFloat
  div : PyFloat → PyFloat → PyFloat
  sqrt : PyFloat → PyFloat
  log : PyFloat → PyFloat
  log2 : PyFloat → PyFloat
  /-- `float(n)`. -/
  ofInt : Int → PyFloat
  /-- `n / m` of two ints. -/
  divInt : Int → Int → PyFloat
  /-- `round(x, 4)`. -/
  round4 : PyFloat → PyFloat
  /-- `math.fsum`; it raises OverflowError. -/
  fsum : List PyFloat → Except Exn PyFloat
  /-- `float(x)` of an exact number. -/
  ofRat : Rat → PyFloat
  /-- `Decimal(str(x))` of a float that is not negative. -/
  toDecimal : PyFloat → Decimal
  toDecimal_zero : (toDecimal ⟨0⟩).value = 0
  toDecimal_one : (toDecimal ⟨0x3FF0000000000000⟩).value = 1

namespace PyFloat

def zero : PyFloat := ⟨0⟩
def half : PyFloat := ⟨0x3FE0000000000000⟩
def one : PyFloat := ⟨0x3FF0000000000000⟩

/-- The number that a finite float is. -/
def value (a : PyFloat) : Rat := if a.negative then -a.magnitude else a.magnitude

theorem zero_value : zero.value = 0 := by decide +kernel

theorem num_of_finite {a : PyFloat} (h : a.isFinite = true) : a.num = .fin a.value := by
  have he : a.exponent ≠ 2047 := by simpa [isFinite] using h
  simp [num, he, value]

/-- `a < b`. -/
def lt (a b : PyFloat) : Bool :=
  match a.num, b.num with
  | .fin x, .fin y => decide (x < y)
  | .fin _, .inf negative => !negative
  | .inf negative, .fin _ => negative
  | .inf x, .inf y => x && !y
  | _, _ => false

/-- `a == b`. -/
def eq (a b : PyFloat) : Bool := a.num.pyEq b.num

/-- `a <= b`. -/
def le (a b : PyFloat) : Bool := a.lt b || a.eq b

theorem lt_iff {a b : PyFloat} (ha : a.isFinite = true) (hb : b.isFinite = true) :
    a.lt b = true ↔ a.value < b.value := by
  unfold lt
  rw [num_of_finite ha, num_of_finite hb]
  simp

theorem le_iff {a b : PyFloat} (ha : a.isFinite = true) (hb : b.isFinite = true) :
    a.le b = true ↔ a.value ≤ b.value := by
  unfold le eq
  rw [Bool.or_eq_true, lt_iff ha hb, num_of_finite ha, num_of_finite hb, le_iff_lt_or_eq]
  simp [Num.pyEq]

/-- `abs(a)`. -/
def abs (a : PyFloat) : PyFloat := ⟨a.bits &&& 0x7FFFFFFFFFFFFFFF⟩

/-- `max(a, b)`. -/
def max (a b : PyFloat) : PyFloat := if a.lt b then b else a

/-- `min(a, b)`. -/
def min (a b : PyFloat) : PyFloat := if b.lt a then b else a

/-- Neighbours satisfy a test. -/
def neighbours (p : PyFloat → PyFloat → Bool) : List PyFloat → Bool
  | a :: b :: rest => p a b && neighbours p (b :: rest)
  | _ => true

/-- `values == sorted(values)` for finite values. -/
def ascending (values : List PyFloat) : Bool := neighbours le values

/-- `tuple(sorted(set(values))) == values` for finite values. -/
def increasing (values : List PyFloat) : Bool := neighbours lt values

end PyFloat

/-- How a forecast fails: with a ForecastError, or with what a provider or a
library function raised. -/
inductive ForecastExn where
  | forecastError (msg : PyStr)
  | raised (e : Exn)
deriving DecidableEq

def ForecastExn.error {α : Type} (msg : String) : Except ForecastExn α :=
  .error (.forecastError (py msg))

/-- Pass on what a library function raised. -/
def ForecastExn.lift {α : Type} (x : Except Exn α) : Except ForecastExn α := x.mapError .raised

theorem ok_of_lift {α : Type} {x : Except Exn α} {a : α} (h : ForecastExn.lift x = .ok a) :
    x = .ok a := by
  cases x with
  | error e => cases h
  | ok b =>
    cases h
    rfl

namespace Arithmetic

variable (ar : Arithmetic)

/-- `statistics.median` of a list that is not empty. -/
def median (values : List PyFloat) : PyFloat :=
  let sorted := values.insertionSort (fun a b => a.le b)
  let n := sorted.length
  if n % 2 = 1 then sorted.getD (n / 2) .zero
  else ar.div (ar.add (sorted.getD (n / 2 - 1) .zero) (sorted.getD (n / 2) .zero)) (ar.ofInt 2)

/-- `statistics.fmean` of a list that is not empty. -/
def fmean (values : List PyFloat) : Except Exn PyFloat := do
  let total ← ar.fsum values
  return ar.div total (ar.ofInt values.length)

end Arithmetic

/-! ## §2. Requests and forecasts. -/

structure ForecastRequest where
  signalId : PyStr
  values : List (Option PyFloat)
  horizon : Int
  quantiles : List PyFloat

structure ForecastPoint where
  step : Nat
  quantiles : List (PyStr × PyFloat)

structure ForecastReceipt where
  contract : PyStr
  signalId : PyStr
  provider : PyStr
  contextPoints : Nat
  imputedPoints : Nat
  horizon : Int
  quantiles : List PyFloat
  inputSha256 : PyStr
  outputSha256 : PyStr
  confidence : PyFloat
  limitations : List PyStr
  rawInputSha256 : PyStr
  originalContextPoints : Nat
  truncatedPoints : Nat

structure GovernedForecast where
  points : List ForecastPoint
  receipt : ForecastReceipt

/-- The provider boundary: one mapping from quantiles to values for each step. -/
structure ForecastProvider where
  name : PyStr
  forecast : List PyFloat → Nat → List PyFloat → Except Exn (List (List (PyFloat × PyFloat)))

def maxContext : Nat := 8192
def maxQuantiles : Nat := 99
def contractVersion : PyStr := py "szl.lyte.forecast-loom/v1"

/-- `row[q]`: keys of a dict are compared with `==`. -/
def atQuantile (row : List (PyFloat × PyFloat)) (q : PyFloat) : Option PyFloat :=
  (row.find? (fun p => p.1.eq q)).map Prod.snd

/-- `n` digits of `k`, with zeros in front. -/
def zfill (n : Nat) (k : Nat) : PyStr :=
  List.replicate (n - (decimal k).length) 48 ++ decimal k

/-- `quantile_key`, of a quantile as a decimal: its percentage, with two digits
before the point and no zeros at the end. -/
def Decimal.key (x : Decimal) : PyStr :=
  let exact := x.coefficient * 100
  let fraction := if x.places = 0 then [] else
    ((zfill x.places (exact % 10 ^ x.places)).reverse.dropWhile (· == 48)).reverse
  py "q" ++ zfill 2 (exact / 10 ^ x.places) ++ (if fraction.isEmpty then [] else 46 :: fraction)

section Loom

variable (ar : Arithmetic)

/-- `quantile_key`. -/
def quantileKey (q : PyFloat) : PyStr := (ar.toDecimal q).key

/-- `_validate_quantiles`: floats are returned as they are. -/
def validateQuantiles (quantiles : List PyFloat) : Except ForecastExn (List PyFloat) :=
  if quantiles.isEmpty || maxQuantiles < quantiles.length then
    ForecastExn.error "between 1 and 99 quantiles are required"
  else if quantiles.any (fun q => q.le .zero || PyFloat.one.le q || !q.isFinite) then
    ForecastExn.error "quantiles must be finite values strictly between 0 and 1"
  else if !PyFloat.increasing quantiles then
    ForecastExn.error "quantiles must be strictly increasing and unique"
  else if !quantiles.any (fun q => q.eq .half) then
    ForecastExn.error "quantiles must include the median (0.5)"
  else .ok quantiles

/-- The loop of `_impute`: the values filled so far decide about the next one. -/
def fillGaps (fallback : PyFloat) : Option PyFloat → List (Option PyFloat) → List PyFloat
  | _, [] => []
  | last, none :: rest => last.getD fallback :: fillGaps fallback last rest
  | _, some value :: rest => value :: fillGaps fallback (some value) rest

/-- `_impute`: the context without gaps, and how many there were. -/
def impute (values : List (Option PyFloat)) : Except ForecastExn (List PyFloat × Nat) :=
  if values.isEmpty then ForecastExn.error "forecast context cannot be empty"
  else
    let values := values.drop (values.length - maxContext)
    let valid := values.filterMap id
    if valid.isEmpty then ForecastExn.error "forecast context cannot be entirely missing"
    else if valid.any (fun v => !v.isFinite) then
      ForecastExn.error "forecast context contains a non-finite value"
    else .ok (fillGaps (ar.median valid) none values, values.countP Option.isNone)

/-! ## §3. The baseline. -/

namespace RobustDriftProvider

def slope (values : List PyFloat) : PyFloat :=
  if values.length < 2 then .zero
  else
    let window := values.drop (values.length - 64)
    let slopes := List.zipWith (fun a b => ar.sub b a) window window.tail
    if slopes.isEmpty then .zero else ar.median slopes

def scale (values : List PyFloat) : PyFloat :=
  let center := ar.median values
  let mad := ar.median (values.map (fun v => (ar.sub v center).abs))
  PyFloat.max ⟨0x3E112E0BE826D695⟩ (ar.mul ⟨0x3FF7B8BAC710CB29⟩ mad)

/-- One step of the forecast. -/
def row (slope scale anchor : PyFloat) (quantiles : List PyFloat) (step : Nat) :
    List (PyFloat × PyFloat) :=
  let median := ar.add anchor (ar.mul slope (ar.ofInt step))
  let spread := ar.mul scale (ar.sqrt (ar.ofInt step))
  quantiles.map (fun q =>
    let z := ar.div (ar.log (ar.div q (ar.sub .one q))) ⟨0x3FFB333333333333⟩
    (q, ar.add median (ar.mul z spread)))

def forecast (values : List PyFloat) (horizon : Nat) (quantiles : List PyFloat) :
    Except Exn (List (List (PyFloat × PyFloat))) :=
  let slope := slope ar values
  let scale := scale ar (values.drop (values.length - 256))
  let anchor := values.getLastD .zero
  .ok ((List.range horizon).map (fun i => row ar slope scale anchor quantiles (i + 1)))

end RobustDriftProvider

def robustDriftProvider : ForecastProvider where
  name := py "szl.robust-drift/v1"
  forecast := RobustDriftProvider.forecast ar

/-- `_confidence`. -/
def confidence (contextPoints imputed : Nat) (horizon : Int) : PyFloat :=
  let density := ar.sub .one (ar.divInt imputed (Nat.max 1 contextPoints))
  let horizonPenalty := ar.div .one (ar.add .one
    (ar.div (ar.ofInt horizon) (PyFloat.max ⟨0x4020000000000000⟩ (ar.ofInt contextPoints))))
  let contextReward := PyFloat.min .one
    (ar.div (ar.log2 (ar.ofInt (contextPoints + 1))) ⟨0x4024000000000000⟩)
  ar.round4 (PyFloat.max .zero
    (PyFloat.min .one (ar.mul (ar.mul density horizonPenalty) contextReward)))

/-! ## §4. Forecasts. -/

/-- The quantiles of one step, as the provider returned them, in order. -/
def normalizeRow (row : List (PyFloat × PyFloat)) :
    List PyFloat → Except ForecastExn (List (PyStr × PyFloat))
  | [] => .ok []
  | q :: rest =>
      match atQuantile row q with
      | none => .error (.forecastError (py "provider omitted quantile " ++ ar.floatRepr q))
      | some value =>
          if !value.isFinite then ForecastExn.error "provider returned a non-finite forecast"
          else do
            let others ← normalizeRow row rest
            return (quantileKey ar q, value) :: others

/-- The loop of `run_forecast` over the steps. -/
def normalizeRows (quantiles : List PyFloat) :
    Nat → List (List (PyFloat × PyFloat)) → Except ForecastExn (List ForecastPoint)
  | _, [] => .ok []
  | step, row :: rows => do
      let normalized ← normalizeRow ar row quantiles
      if !PyFloat.ascending (normalized.map Prod.snd) then
        ForecastExn.error "provider returned crossing quantiles"
      else
        let points ← normalizeRows quantiles (step + 1) rows
        return ⟨step, normalized⟩ :: points

/-- `asdict(point)`. -/
def ForecastPoint.asdict (p : ForecastPoint) : Json := .dict [
  (py "step", .int p.step),
  (py "quantiles", .dict (p.quantiles.map (fun f => (f.1, .float f.2))))]

/-- What a forecast was computed from. -/
def inputPayload (request : ForecastRequest) (values : List Json) : Json := .dict [
  (py "contract", .str contractVersion),
  (py "signal_id", .str request.signalId),
  (py "values", .list values),
  (py "horizon", .int request.horizon),
  (py "quantiles", .list (request.quantiles.map .float))]

/-- A float or None. -/
def optionalFloat (v : Option PyFloat) : Json :=
  match v with
  | some f => .float f
  | none => .null

def forecastLimitations : List PyStr := [
  py "Forecasts are advisory signals, not autonomous execution authority.",
  py "Provider admission requires measured benchmark evidence against SZL baselines.",
  py "Confidence is an operational evidence score, not calibrated probability.",
  py "SHA-256 digests bind content; they are not signatures or proof of accuracy."]

/-- The receipt of a forecast. -/
def forecastReceipt (request : ForecastRequest) (provider : PyStr) (values : List PyFloat)
    (imputed : Nat) (points : List ForecastPoint) : Except ForecastExn ForecastReceipt := do
  let inputSha256 ← ForecastExn.lift
    (sha256Json ar.toRuntime (inputPayload request (values.map .float)))
  let outputSha256 ← ForecastExn.lift
    (sha256Json ar.toRuntime (.list (points.map ForecastPoint.asdict)))
  let rawInputSha256 ← ForecastExn.lift
    (sha256Json ar.toRuntime (inputPayload request (request.values.map optionalFloat)))
  return {
    contract := contractVersion
    signalId := request.signalId
    provider := provider
    contextPoints := values.length
    imputedPoints := imputed
    horizon := request.horizon
    quantiles := request.quantiles
    inputSha256 := inputSha256
    outputSha256 := outputSha256
    confidence := confidence ar values.length imputed request.horizon
    limitations := forecastLimitations
    rawInputSha256 := rawInputSha256
    originalContextPoints := request.values.length
    truncatedPoints := request.values.length - values.length }

/-- The checks of `run_forecast` on its request, and the context that it hands to the
provider, with the number of gaps that were filled in it. -/
def forecastContext (request : ForecastRequest) : Except ForecastExn (List PyFloat × Nat) :=
  if (strip request.signalId).isEmpty then ForecastExn.error "signal_id is required"
  else if request.horizon < 1 || 1024 < request.horizon then
    ForecastExn.error "horizon must be between 1 and 1024"
  else do
    let _ ← validateQuantiles request.quantiles
    if request.values.any (fun v => v.any (fun f => !f.isFinite)) then
      ForecastExn.error "forecast context contains a non-finite value"
    else impute ar request.values

/-- `run_forecast` with a provider. -/
def runForecast (request : ForecastRequest) (provider : ForecastProvider) :
    Except ForecastExn GovernedForecast := do
  let (values, imputed) ← forecastContext ar request
  let raw ← ForecastExn.lift (provider.forecast values request.horizon.toNat request.quantiles)
  if raw.length ≠ request.horizon.toNat then
    ForecastExn.error "provider returned an unexpected number of forecast steps"
  else do
    let points ← normalizeRows ar request.quantiles 1 raw
    let receipt ← forecastReceipt ar request provider.name values imputed points
    return ⟨points, receipt⟩

end Loom

/-! ## §5. An interpreter for binary64. -/

namespace PyFloat

/-- `n / d` rounded to an integer, ties to even. -/
def roundHalfEven (n d : Nat) : Nat :=
  if d < 2 * (n % d) || (2 * (n % d) == d && n / d % 2 == 1) then n / d + 1 else n / d

/-- The binary64 nearest to a number. -/
def nearest (x : Rat) : PyFloat :=
  let n := x.num.natAbs
  let guess : Int := Nat.log2 n - Nat.log2 x.den
  let small := if 0 ≤ guess then n < x.den <<< guess.toNat else n <<< (-guess).toNat < x.den
  let e := Max.max (if small then guess - 1 else guess) (-1022)
  let m := if e ≤ 52 then roundHalfEven (n <<< (52 - e).toNat) x.den
    else roundHalfEven n (x.den <<< (e - 52).toNat)
  let bits := if n = 0 then 0 else (e + 1022).toNat <<< 52 + m
  let magnitude := if 0x7FF <<< 52 ≤ bits then 0x7FF <<< 52 else bits
  ⟨BitVec.ofNat 64 (if x < 0 then magnitude + 1 <<< 63 else magnitude)⟩

/-- An operation on finite floats. -/
def rounded (f : Rat → Rat → Rat) (a b : PyFloat) : PyFloat :=
  if a.isFinite && b.isFinite then nearest (f a.value b.value) else ⟨0x7FF8000000000000⟩

/-- `e` with `10^e ≤ x < 10^(e + 1)`. -/
def decimalExponent (x : Rat) : Int :=
  let guess : Int := (decimal x.num.natAbs).length - (decimal x.den).length
  let small := if 0 ≤ guess then x.num.natAbs < x.den * 10 ^ guess.toNat
    else x.num.natAbs * 10 ^ (-guess).toNat < x.den
  if small then guess - 1 else guess

/-- The digits of `x · 10^k`. -/
def digitsAt (x : Rat) (k : Int) : Nat :=
  if 0 ≤ k then roundHalfEven (x.num.natAbs * 10 ^ k.toNat) x.den
  else roundHalfEven x.num.natAbs (x.den * 10 ^ (-k).toNat)

/-- `d · 10^(-k)`. -/
def ofDigits (d : Nat) (k : Int) : Rat :=
  if 0 ≤ k then mkRat d (10 ^ k.toNat) else mkRat (d * 10 ^ (-k).toNat) 1

/-- The fewest digits `d` that name a finite float, as `d · 10^(-k)`. -/
def shortest (a : PyFloat) : Nat × Int :=
  if a.magnitude = 0 then (0, 0)
  else
    let e := decimalExponent a.magnitude
    let found := (List.range 17).findSome? (fun (n : Nat) =>
      let k := n - e
      let d := digitsAt a.magnitude k
      if nearest (ofDigits d k) = a.abs then some (d, k) else none)
    match found with
    | some (d, k) => if d % 10 = 0 then (d / 10, k - 1) else (d, k)
    | none => (0, 0)

/-- `float.__repr__` of a finite float. -/
def shortestText (a : PyFloat) : PyStr :=
  let (d, k) := a.shortest
  let digits := decimal d
  let point : Int := digits.length - k
  let sign := if a.negative then py "-" else []
  if point ≤ -4 ∨ 16 < point then
    sign ++ digits.take 1 ++ (if digits.length = 1 then [] else 46 :: digits.drop 1) ++ py "e" ++
      (if point < 1 then py "-" else py "+") ++ zfill 2 (point - 1).natAbs
  else if point ≤ 0 then sign ++ py "0." ++ List.replicate (-point).toNat 48 ++ digits
  else if digits.length ≤ point.toNat then
    sign ++ digits ++ List.replicate (point.toNat - digits.length) 48 ++ py ".0"
  else sign ++ digits.take point.toNat ++ [46] ++ digits.drop point.toNat

end PyFloat

/-- Exact operations, rounded; `log` knows the odds of the usual quantiles, and
`log2` and `sqrt` know powers of two and of four. -/
def Arithmetic.binary64 : Arithmetic where
  toRuntime := { Runtime.ascii with floatRepr := PyFloat.shortestText }
  add := PyFloat.rounded (· + ·)
  sub := PyFloat.rounded (· - ·)
  mul := PyFloat.rounded (· * ·)
  div := PyFloat.rounded (· / ·)
  sqrt x := .nearest (Nat.sqrt x.value.num.natAbs)
  log x :=
    if x.bits = 0x3FBC71C71C71C71D then ⟨0xC00193EA7AAD030A⟩
    else if x.bits = 0x4022000000000001 then ⟨0x400193EA7AAD030B⟩
    else .zero
  log2 x := .nearest (Nat.log2 x.value.num.natAbs)
  ofInt n := .nearest n
  divInt n m := .nearest (mkRat n m.toNat)
  round4 x := .nearest (mkRat (x.value * 10000 + 1 / 2).floor 10000)
  fsum values := .ok (.nearest (values.map PyFloat.value).sum)
  ofRat := .nearest
  toDecimal x := if 0 ≤ x.shortest.2 then ⟨x.shortest.1, x.shortest.2.toNat⟩
    else ⟨x.shortest.1 * 10 ^ (-x.shortest.2).toNat, 0⟩
  toDecimal_zero := by decide +kernel
  toDecimal_one := by decide +kernel

end Lyte
