import Lyte.Intelligence.RiskSoundness
import Lyte.Intelligence.QuantileKeys
import Lyte.Connectors.StrictJson

/-
  Lyte.Intelligence.ForecastFits — what the loom returns fits the risk window.

  `run_forecast` and `derive_risk_window` each check levels, keys and digests for
  themselves.  A forecast that the first returns passes every check of the second;
  what is left is the receipt, which only the second digests: the name of the
  provider is written for the first time there.

      forecast_fits_risk   keys are distinct, every step has exactly these with
                           ascending values, and the risk window is derived exactly
                           if the receipt can be digested.
-/

namespace Lyte

open Transact

/-! ## §1. The interpreter. -/

/-- What floats are promised to do.  Documented behaviour: `float(repr(x)) == x`,
decimals of floats are ordered as the floats are, digests are written in hex, and
numbers from 0 to 1 stay finite when they are converted or rounded. -/
structure FloatSpelling (ar : Arithmetic) (rt : Interpreter) : Prop where
  runtime : rt.toRuntime = ar.toRuntime
  roundTrip : ReprRoundTrip rt
  hex : ∀ bytes, isSha256Hex (ar.sha256 bytes) = true
  order : ∀ p q : PyFloat, p.isFinite = true → q.isFinite = true → 0 ≤ p.value →
    p.value < q.value → (ar.toDecimal p).value < (ar.toDecimal q).value
  ofRat_finite : ∀ x : Rat, 0 ≤ x → x ≤ 1 → (ar.ofRat x).isFinite = true
  round4_finite : ∀ f : PyFloat, f.isFinite = true → 0 ≤ f.value → f.value ≤ 1 →
    (ar.round4 f).isFinite = true

theorem one_value : PyFloat.one.value = 1 := by decide +kernel

/-- A float between two finite ones is finite. -/
theorem finite_between {a x b : PyFloat} (ha : a.isFinite = true) (hb : b.isFinite = true)
    (h : a.lt x = true) (h' : x.lt b = true) : x.isFinite = true := by
  by_contra hx
  have he : x.exponent = 2047 := by simpa [PyFloat.isFinite] using hx
  unfold PyFloat.lt at h h'
  rw [PyFloat.num_of_finite ha] at h
  rw [PyFloat.num_of_finite hb] at h'
  unfold PyFloat.num at h h'
  rw [if_pos he] at h h'
  by_cases hm : x.mantissa = 0
  · rw [if_pos hm] at h h'
    simp only [Bool.not_eq_true'] at h
    simp only [h] at h'
    cases h'
  · rw [if_neg hm] at h
    cases h

/-! ## §2. Levels. -/

/-- The levels of a request that was accepted. -/
structure Levels (quantiles : List PyFloat) : Prop where
  ne_nil : quantiles.isEmpty = false
  few : quantiles.length ≤ 99
  finite : ∀ q ∈ quantiles, q.isFinite = true
  pos : ∀ q ∈ quantiles, 0 < q.value
  below : ∀ q ∈ quantiles, q.value < 1
  increasing : PyFloat.increasing quantiles = true
  median : quantiles.any (fun q => q.eq .half) = true

theorem validateQuantiles_ok {quantiles result : List PyFloat}
    (h : validateQuantiles quantiles = .ok result) : Levels quantiles := by
  unfold validateQuantiles at h
  split at h
  · cases h
  · next hsize =>
    split at h
    · cases h
    · next hrange =>
      split at h
      · cases h
      · next hincreasing =>
        split at h
        · cases h
        · next hmedian =>
          simp only [Bool.or_eq_true, decide_eq_true_eq, not_or, Bool.not_eq_true] at hsize
          simp only [Bool.not_eq_true', Bool.not_eq_false] at hincreasing hmedian
          have heach : ∀ q ∈ quantiles, q.isFinite = true ∧ 0 < q.value ∧ q.value < 1 := by
            intro q hq
            simp only [List.any_eq_true, not_exists, not_and, Bool.or_eq_true, not_or,
              Bool.not_eq_true', Bool.not_eq_false] at hrange
            obtain ⟨⟨hzero, hone⟩, hfinite⟩ := hrange q hq
            rw [PyFloat.le_iff hfinite (by decide), PyFloat.zero_value, not_le] at hzero
            rw [PyFloat.le_iff (by decide) hfinite, one_value, not_le] at hone
            exact ⟨hfinite, hzero, hone⟩
          have hfew : quantiles.length ≤ 99 := by
            have hmost := hsize.2
            unfold maxQuantiles at hmost
            omega
          exact ⟨hsize.1, hfew, fun q hq => (heach q hq).1, fun q hq => (heach q hq).2.1,
            fun q hq => (heach q hq).2.2, hincreasing, hmedian⟩

/-- Neighbours in order are all in order, where the order is that of the numbers. -/
theorem pairwise_of_neighbours {p : PyFloat → PyFloat → Bool} {r : Rat → Rat → Prop}
    (htrans : ∀ {x y z : Rat}, r x y → r y z → r x z) {values : List PyFloat}
    (hp : ∀ a ∈ values, ∀ b ∈ values, p a b = true → r a.value b.value)
    (h : PyFloat.neighbours p values = true) :
    values.Pairwise (fun a b => r a.value b.value) := by
  induction values with
  | nil => exact List.Pairwise.nil
  | cons a rest ih =>
    cases rest with
    | nil => exact List.pairwise_singleton _ _
    | cons b rest =>
      unfold PyFloat.neighbours at h
      rw [Bool.and_eq_true] at h
      have hrest := ih (fun x hx y hy => hp x (List.mem_cons_of_mem _ hx) y
        (List.mem_cons_of_mem _ hy)) h.2
      have hab := hp a List.mem_cons_self b (List.mem_cons_of_mem _ List.mem_cons_self) h.1
      apply List.pairwise_cons.mpr
      refine ⟨fun c hc => ?_, hrest⟩
      rcases List.mem_cons.mp hc with rfl | hc
      · exact hab
      · exact htrans hab ((List.pairwise_cons.mp hrest).1 c hc)

section Fits

variable {ar : Arithmetic} {rt : Interpreter} {quantiles : List PyFloat}

theorem Levels.pairwise (hl : Levels quantiles) :
    quantiles.Pairwise (fun a b => a.value < b.value) := by
  apply pairwise_of_neighbours (p := PyFloat.lt) (r := (· < ·)) lt_trans ?_ hl.increasing
  intro a ha b hb h
  exact (PyFloat.lt_iff (hl.finite a ha) (hl.finite b hb)).mp h

/-- **Distinct levels have distinct keys.** -/
theorem Levels.keys_nodup (hspell : FloatSpelling ar rt) (hl : Levels quantiles) :
    (quantiles.map (quantileKey ar)).Nodup := by
  unfold List.Nodup
  rw [List.pairwise_map]
  have hpair := hl.pairwise
  have hstep : ∀ a ∈ quantiles, ∀ b ∈ quantiles, a.value < b.value →
      quantileKey ar a ≠ quantileKey ar b := by
    intro a ha b hb hlt heq
    have hdecimal := hspell.order a b (hl.finite a ha) (hl.finite b hb)
      (le_of_lt (hl.pos a ha)) hlt
    have hsame := Decimal.key_value heq
    rw [hsame] at hdecimal
    exact lt_irrefl _ hdecimal
  exact List.Pairwise.imp_of_mem (fun ha hb h => hstep _ ha _ hb h) hpair

theorem Decimal.value_nonneg (x : Decimal) : 0 ≤ x.value := by
  unfold Decimal.value
  rw [Rat.mkRat_eq_div]
  positivity

/-- The decimal of a level is between 0 and 1. -/
theorem Levels.unit (hspell : FloatSpelling ar rt) (hl : Levels quantiles) {q : PyFloat}
    (hq : q ∈ quantiles) : 0 ≤ level ar q ∧ level ar q ≤ 1 := by
  constructor
  · exact Decimal.value_nonneg _
  · have hlt := hspell.order q .one (hl.finite q hq) (by decide) (le_of_lt (hl.pos q hq))
      (by rw [one_value]; exact hl.below q hq)
    have hone : (ar.toDecimal .one).value = 1 := ar.toDecimal_one
    rw [hone] at hlt
    exact le_of_lt hlt

/-! ## §3. Points. -/

/-- **A step carries exactly the keys of the levels, with ascending values.** -/
structure PointFits (ar : Arithmetic) (quantiles : List PyFloat) (point : ForecastPoint) :
    Prop where
  keys : point.quantiles.map Prod.fst = quantiles.map (quantileKey ar)
  finite : ∀ f ∈ point.quantiles, f.2.isFinite = true
  ascending : PyFloat.ascending (point.quantiles.map Prod.snd) = true

theorem PointFits.pairwise {point : ForecastPoint} (h : PointFits ar quantiles point) :
    (point.quantiles.map Prod.snd).Pairwise (fun a b => a.value ≤ b.value) := by
  have hfinite : ∀ v ∈ point.quantiles.map Prod.snd, v.isFinite = true := by
    intro v hv
    obtain ⟨f, hf, rfl⟩ := List.mem_map.mp hv
    exact h.finite f hf
  apply pairwise_of_neighbours (p := PyFloat.le) (r := (· ≤ ·)) le_trans ?_ h.ascending
  intro a ha b hb hle
  exact (PyFloat.le_iff (hfinite a ha) (hfinite b hb)).mp hle

/-- `d[key] = value`. -/
def setValue (d : List (PyStr × PyFloat)) (key : PyStr) (value : PyFloat) :
    List (PyStr × PyFloat) :=
  if key ∈ d.map Prod.fst then d.map (fun f => if f.1 = key then (key, value) else f)
  else d ++ [(key, value)]

/-- The dict of a step, as the loop fills it. -/
def filled (fs : List (PyStr × PyFloat)) : List (PyStr × PyFloat) :=
  fs.foldl (fun d f => setValue d f.1 f.2) []

/-- No assignment of the loop replaces another where the keys are distinct. -/
theorem filled_of_nodup {fs : List (PyStr × PyFloat)} (hn : (fs.map Prod.fst).Nodup) :
    filled fs = fs := by
  have hgo : ∀ (done rest : List (PyStr × PyFloat)), ((done ++ rest).map Prod.fst).Nodup →
      rest.foldl (fun d f => setValue d f.1 f.2) done = done ++ rest := by
    intro done rest
    induction rest generalizing done with
    | nil => exact fun _ => (List.append_nil done).symm
    | cons f rest ih =>
      intro hn
      have hnew : f.1 ∉ done.map Prod.fst := by
        rw [List.map_append, List.nodup_append] at hn
        exact fun hmem => hn.2.2 f.1 hmem f.1 (List.mem_map_of_mem List.mem_cons_self) rfl
      rw [List.foldl_cons]
      have hset : setValue done f.1 f.2 = done ++ [f] := if_neg hnew
      rw [hset, ih, List.append_assoc, List.singleton_append]
      rw [List.append_assoc, List.singleton_append]
      exact hn
  exact hgo [] fs hn

theorem normalizeRow_ok {row : List (PyFloat × PyFloat)} {fs : List (PyStr × PyFloat)}
    (h : normalizeRow ar row quantiles = .ok fs) :
    fs.map Prod.fst = quantiles.map (quantileKey ar) ∧ ∀ f ∈ fs, f.2.isFinite = true := by
  induction quantiles generalizing fs with
  | nil =>
    cases h
    exact ⟨rfl, fun f hf => by cases hf⟩
  | cons q quantiles ih =>
    unfold normalizeRow at h
    split at h
    · cases h
    · next value hvalue =>
      split at h
      · cases h
      · next hfinite =>
        obtain ⟨others, hothers, h⟩ := ok_of_bind h
        cases h
        obtain ⟨hkeys, hall⟩ := ih hothers
        constructor
        · rw [List.map_cons, hkeys, List.map_cons]
        · intro f hf
          rcases List.mem_cons.mp hf with rfl | hf
          · simpa using hfinite
          · exact hall f hf

theorem normalizeRows_ok {n : Nat} {rows : List (List (PyFloat × PyFloat))}
    {points : List ForecastPoint} (h : normalizeRows ar quantiles n rows = .ok points) :
    points.map ForecastPoint.step = List.range' n rows.length ∧
      ∀ point ∈ points, PointFits ar quantiles point := by
  induction rows generalizing n points with
  | nil =>
    cases h
    exact ⟨rfl, fun p hp => by cases hp⟩
  | cons row rows ih =>
    unfold normalizeRows at h
    obtain ⟨fs, hfs, h⟩ := ok_of_bind h
    split at h
    · cases h
    · next hascending =>
      obtain ⟨rest, hrest, h⟩ := ok_of_bind h
      cases h
      obtain ⟨hsteps, hall⟩ := ih hrest
      obtain ⟨hkeys, hfinite⟩ := normalizeRow_ok hfs
      constructor
      · rw [List.map_cons, hsteps, List.length_cons, List.range'_succ]
      · intro point hpoint
        rcases List.mem_cons.mp hpoint with rfl | hpoint
        · exact ⟨hkeys, hfinite, by simpa using hascending⟩
        · exact hall point hpoint

/-! ## §4. The forecast. -/

/-- What a request was accepted with. -/
structure ContextOf (request : ForecastRequest) (context : List PyFloat × Nat) : Prop where
  levels : Levels request.quantiles
  atLeast : 1 ≤ request.horizon
  atMost : request.horizon ≤ 1024
  short : context.1.length ≤ maxContext
  gaps : context.2 ≤ maxContext

theorem fillGaps_length (fallback : PyFloat) (last : Option PyFloat)
    (values : List (Option PyFloat)) : (fillGaps fallback last values).length = values.length := by
  induction values generalizing last with
  | nil => rfl
  | cons v values ih =>
    cases v with
    | none => exact congrArg Nat.succ (ih last)
    | some value => exact congrArg Nat.succ (ih (some value))

theorem impute_ok {values : List (Option PyFloat)} {context : List PyFloat × Nat}
    (h : impute ar values = .ok context) :
    context.1.length ≤ maxContext ∧ context.2 ≤ maxContext := by
  have hwindow : (values.drop (values.length - maxContext)).length ≤ maxContext := by
    rw [List.length_drop]
    omega
  unfold impute at h
  split at h
  · cases h
  · simp only at h
    generalize values.drop (values.length - maxContext) = window at h hwindow
    split at h
    · cases h
    · split at h
      · cases h
      · rw [← Except.ok.inj h]
        constructor
        · show (fillGaps _ _ window).length ≤ maxContext
          rw [fillGaps_length]
          exact hwindow
        · exact Nat.le_trans List.countP_le_length hwindow

theorem forecastContext_ok {request : ForecastRequest} {context : List PyFloat × Nat}
    (h : forecastContext ar request = .ok context) : ContextOf request context := by
  unfold forecastContext at h
  split at h
  · cases h
  · split at h
    · cases h
    · next hhorizon =>
      simp only [Bool.or_eq_true, decide_eq_true_eq, not_or, not_lt] at hhorizon
      obtain ⟨_, hlevels, h⟩ := ok_of_bind h
      split at h
      · cases h
      · obtain ⟨hcontext, himputed⟩ := impute_ok h
        exact ⟨validateQuantiles_ok hlevels, hhorizon.1, hhorizon.2, hcontext, himputed⟩

/-- What a forecast that is returned is. -/
structure ForecastOf (ar : Arithmetic) (request : ForecastRequest) (provider : ForecastProvider)
    (forecast : GovernedForecast) (context : List PyFloat × Nat) : Prop where
  accepted : ContextOf request context
  steps : forecast.points.map ForecastPoint.step = List.range' 1 request.horizon.toNat
  fits : ∀ point ∈ forecast.points, PointFits ar request.quantiles point
  receipt : forecastReceipt ar request provider.name context.1 context.2 forecast.points
    = .ok forecast.receipt

theorem runForecast_receipt {request : ForecastRequest} {provider : ForecastProvider}
    {forecast : GovernedForecast} (h : runForecast ar request provider = .ok forecast) :
    ∃ context, ForecastOf ar request provider forecast context := by
  unfold runForecast at h
  obtain ⟨context, hcontext, h⟩ := ok_of_bind h
  obtain ⟨raw, _, h⟩ := ok_of_bind h
  split at h
  · cases h
  · next hlength =>
    rw [not_not] at hlength
    obtain ⟨points, hpoints, h⟩ := ok_of_bind h
    obtain ⟨receipt, hreceipt, h⟩ := ok_of_bind h
    cases h
    obtain ⟨hsteps, hfits⟩ := normalizeRows_ok hpoints
    rw [hlength] at hsteps
    exact ⟨context, forecastContext_ok hcontext, hsteps, hfits, hreceipt⟩

/-! ## §5. Digests. -/

theorem decimal_length_mono {m n : Nat} (h : m ≤ n) : (decimal m).length ≤ (decimal n).length := by
  have hpos : 0 < (decimal n).length := by
    unfold decimal
    rw [List.length_map]
    exact Nat.length_toDigits_pos
  apply decimal_length_le hpos
  have hn : n < 10 ^ (decimal n).length := by
    apply (Nat.length_toDigits_le_iff (by decide) hpos).mp
    unfold decimal
    rw [List.length_map]
  omega

/-- Short numbers are written in few digits. -/
theorem decimal_length_short {n : Nat} (h : n ≤ 8192) : (decimal n).length ≤ 4300 := by
  have hfew : (decimal n).length ≤ 5 := decimal_length_le (by decide) (by omega)
  omega

namespace FloatSpelling

variable (hspell : FloatSpelling ar rt)

include hspell

theorem defined {v : Json} : (∃ digest, sha256Json ar.toRuntime v = .ok digest) ↔
    v.encodable = true ∧ v.allStrings noSurrogates = true := by
  have hdefined := @sha256Json_defined rt hspell.roundTrip v
  rw [hspell.runtime] at hdefined
  constructor
  · intro h
    obtain ⟨digest, hdigest⟩ := h
    have hencodable := encodable_of_sha256Json _ hdigest
    exact ⟨hencodable, (hdefined hencodable).mp ⟨digest, hdigest⟩⟩
  · intro h
    exact (hdefined h.1).mpr h.2

theorem digest_noSurrogates {v : Json} {digest : PyStr}
    (h : sha256Json ar.toRuntime v = .ok digest) : noSurrogates digest = true := by
  unfold sha256Json at h
  obtain ⟨text, _, h⟩ := ok_of_bind h
  unfold sha256Text at h
  split at h
  · cases h
    exact noSurrogates_of_hex (hspell.hex _)
  · cases h

theorem confidence_finite (contextPoints imputed : Nat) (horizon : Int) :
    (confidence ar contextPoints imputed horizon).isFinite = true := by
  unfold confidence
  simp only
  generalize ar.mul (ar.mul _ _) _ = x
  have hunit : ∀ y : PyFloat, y.isFinite = true → 0 ≤ y.value → y.value ≤ 1 →
      (ar.round4 y).isFinite = true := hspell.round4_finite
  unfold PyFloat.max PyFloat.min
  by_cases hx : x.lt .one = true
  · rw [if_pos hx]
    by_cases hpos : PyFloat.zero.lt x = true
    · rw [if_pos hpos]
      have hfinite := finite_between (by decide) (by decide) hpos hx
      have hlow := (PyFloat.lt_iff (by decide) hfinite).mp hpos
      have hhigh := (PyFloat.lt_iff hfinite (by decide)).mp hx
      rw [PyFloat.zero_value] at hlow
      rw [one_value] at hhigh
      exact hunit x hfinite (le_of_lt hlow) (le_of_lt hhigh)
    · rw [if_neg hpos]
      exact hunit .zero (by decide) (by rw [PyFloat.zero_value])
        (by rw [PyFloat.zero_value]; decide)
  · rw [if_neg hx, if_pos (by decide +kernel)]
    exact hunit .one (by decide) (by rw [one_value]; decide) (by rw [one_value])

end FloatSpelling

/-- **The receipt of a forecast can be digested**: the name of the provider has no lone
surrogate.  (The number of submitted points is written too, in at most 4300 digits.) -/
def Digestible (request : ForecastRequest) (provider : ForecastProvider) : Prop :=
  noSurrogates provider.name = true ∧ (decimal request.values.length).length ≤ 4300

/-- What is written into the digests of a forecast, apart from the provider. -/
structure Written (ar : Arithmetic) (request : ForecastRequest) (forecast : GovernedForecast)
    (context : List PyFloat × Nat) : Prop where
  contract : forecast.receipt.contract = contractVersion
  signalId : forecast.receipt.signalId = request.signalId
  plain : noSurrogates request.signalId = true
  contextPoints : forecast.receipt.contextPoints = context.1.length
  imputedPoints : forecast.receipt.imputedPoints = context.2
  horizon : forecast.receipt.horizon = request.horizon
  quantiles : forecast.receipt.quantiles = request.quantiles
  input : noSurrogates forecast.receipt.inputSha256 = true
  output : sha256Json ar.toRuntime (.list (forecast.points.map ForecastPoint.asdict))
    = .ok forecast.receipt.outputSha256
  raw : noSurrogates forecast.receipt.rawInputSha256 = true
  confidence : forecast.receipt.confidence
    = confidence ar context.1.length context.2 request.horizon
  limitations : forecast.receipt.limitations = forecastLimitations
  original : forecast.receipt.originalContextPoints = request.values.length
  truncated : forecast.receipt.truncatedPoints = request.values.length - context.1.length

variable {request : ForecastRequest} {provider : ForecastProvider} {forecast : GovernedForecast}
variable {context : List PyFloat × Nat}

theorem ForecastOf.written (hspell : FloatSpelling ar rt)
    (hof : ForecastOf ar request provider forecast context) :
    forecast.receipt.provider = provider.name ∧ Written ar request forecast context := by
  have hreceipt := hof.receipt
  unfold forecastReceipt at hreceipt
  obtain ⟨inputSha256, hinput, hreceipt⟩ := ok_of_bind hreceipt
  obtain ⟨outputSha256, houtput, hreceipt⟩ := ok_of_bind hreceipt
  obtain ⟨rawSha256, hraw, hreceipt⟩ := ok_of_bind hreceipt
  have heq := (Except.ok.inj hreceipt).symm
  have hstrings := (hspell.defined.mp ⟨inputSha256, ok_of_lift hinput⟩).2
  have hplain : noSurrogates request.signalId = true := by
    simp only [inputPayload, Json.allStrings, Json.allStringsFields, Bool.and_eq_true] at hstrings
    exact hstrings.2.1.2
  rw [heq]
  refine ⟨rfl, ?_⟩
  exact {
    contract := by rw [heq]
    signalId := by rw [heq]
    plain := hplain
    contextPoints := by rw [heq]
    imputedPoints := by rw [heq]
    horizon := by rw [heq]
    quantiles := by rw [heq]
    input := by
      rw [heq]
      exact hspell.digest_noSurrogates (ok_of_lift hinput)
    output := by
      rw [heq]
      exact ok_of_lift houtput
    raw := by
      rw [heq]
      exact hspell.digest_noSurrogates (ok_of_lift hraw)
    confidence := by rw [heq]
    limitations := by rw [heq]
    original := by rw [heq]
    truncated := by rw [heq] }

theorem floats_encodable {values : List PyFloat} (h : ∀ v ∈ values, v.isFinite = true) :
    Json.encodableItems (values.map .float) = true := by
  rw [encodableItems_eq, List.all_map, List.all_eq_true]
  exact h

theorem floats_noSurrogates (values : List PyFloat) :
    Json.allStringsItems noSurrogates (values.map .float) = true := by
  rw [allStringsItems_eq, List.all_map, List.all_eq_true]
  exact fun _ _ => rfl

theorem strings_encodable (values : List PyStr) :
    Json.encodableItems (values.map .str) = true := by
  rw [encodableItems_eq, List.all_map, List.all_eq_true]
  exact fun _ _ => rfl

theorem strings_noSurrogates {values : List PyStr} (h : values.all noSurrogates = true) :
    Json.allStringsItems noSurrogates (values.map .str) = true := by
  rw [allStringsItems_eq, List.all_map]
  exact h

/-- **The receipt is digested exactly if it is digestible.** -/
theorem receipt_digest (hspell : FloatSpelling ar rt)
    (hof : ForecastOf ar request provider forecast context) :
    (∃ digest, sha256Json ar.toRuntime forecast.receipt.asdict = .ok digest) ↔
      Digestible request provider := by
  obtain ⟨hprovider, hw⟩ := hof.written hspell
  have hhorizon : request.horizon.natAbs ≤ 8192 := by
    have hle := hof.accepted.atMost
    have hge := hof.accepted.atLeast
    omega
  have hshort : (decimal context.1.length).length ≤ 4300 :=
    decimal_length_short hof.accepted.short
  have hgaps : (decimal context.2).length ≤ 4300 := decimal_length_short hof.accepted.gaps
  have htruncated : (decimal request.values.length).length ≤ 4300 →
      (decimal (request.values.length - context.1.length)).length ≤ 4300 :=
    fun h => Nat.le_trans (decimal_length_mono (Nat.sub_le _ _)) h
  have hconfidence := hspell.confidence_finite context.1.length context.2 request.horizon
  have hencodable : forecast.receipt.asdict.encodable = true ↔
      (decimal request.values.length).length ≤ 4300 := by
    simp only [ForecastReceipt.asdict, Json.encodable, Json.encodableFields, hw.contextPoints,
      hw.imputedPoints, hw.horizon, hw.quantiles, hw.confidence, hw.original, hw.truncated,
      floats_encodable hof.accepted.levels.finite, strings_encodable, hconfidence,
      Int.natAbs_natCast, Bool.and_eq_true, decide_eq_true_eq, decimal_length_short hhorizon,
      hshort, hgaps,
      true_and, and_true]
    exact ⟨fun h => h.1, fun h => ⟨h, htruncated h⟩⟩
  have hconstants : noSurrogates contractVersion = true ∧
      forecastLimitations.all noSurrogates = true := by decide
  have houtput := hspell.digest_noSurrogates hw.output
  have hstrings : forecast.receipt.asdict.allStrings noSurrogates = true ↔
      noSurrogates provider.name = true := by
    simp only [ForecastReceipt.asdict, Json.allStrings, Json.allStringsFields, hprovider,
      hw.contract, hw.signalId, hw.plain, hw.input, hw.raw, hw.limitations, houtput,
      floats_noSurrogates, strings_noSurrogates hconstants.2, hconstants.1, Bool.and_true]
    -- What is left besides the name are the keys.
    generalize noSurrogates provider.name = plain
    cases plain with
    | true => decide
    | false => decide
  rw [hspell.defined, hencodable, hstrings]
  exact and_comm

/-! ## §6. The window. -/

theorem mapM_keys {fs : List (PyStr × PyFloat)} (hn : (fs.map Prod.fst).Nodup)
    {part : List (PyStr × PyFloat)} (hpart : ∀ f ∈ part, f ∈ fs) :
    (part.map Prod.fst).mapM (fun k => fs.lookup k) = some (part.map Prod.snd) := by
  induction part with
  | nil => rfl
  | cons f part ih =>
    rw [List.map_cons, List.mapM_cons, Json.lookup_of_mem hn (hpart f List.mem_cons_self),
      ih (fun g hg => hpart g (List.mem_cons_of_mem _ hg))]
    rfl

/-- The consumer finds the values that the producer put there. -/
theorem stepValues_fits (hspell : FloatSpelling ar rt) (hl : Levels quantiles)
    {point : ForecastPoint} (h : PointFits ar quantiles point) :
    stepValues ar quantiles point = some (point.quantiles.map Prod.snd) := by
  have hnodup := hl.keys_nodup hspell
  unfold stepValues
  simp only
  rw [← h.keys] at hnodup ⊢
  rw [if_pos ?_]
  · exact mapM_keys hnodup (fun f hf => hf)
  · rw [List.all_eq_true]
    intro f hf
    rw [List.contains_iff_mem]
    exact List.mem_map_of_mem hf

/-- A number from 0 to 1. -/
def Unit01 (x : Rat) : Prop := 0 ≤ x ∧ x ≤ 1

theorem Unit01.complement {x : Rat} (h : Unit01 x) : Unit01 (1 - x) :=
  ⟨sub_nonneg.mpr h.2, sub_le_self 1 h.1⟩

theorem breachBracket_unit (rule : ThresholdRule) {pairs : List (PyFloat × PyFloat)}
    (h : ∀ p ∈ pairs, Unit01 (level ar p.1)) :
    Unit01 (breachBracket ar rule pairs).1 ∧ Unit01 (breachBracket ar rule pairs).2 := by
  have hmax : ∀ t : PyFloat × PyFloat → Bool,
      Unit01 (level ar (maxLevel .zero ((pairs.filter t).map Prod.fst))) := by
    intro t
    rcases maxLevel_cases .zero ((pairs.filter t).map Prod.fst) with hzero | hmem
    · rw [hzero, level_zero]
      exact ⟨le_refl _, by decide⟩
    · obtain ⟨p, hp, heq⟩ := List.mem_map.mp hmem
      rw [← heq]
      exact h p (List.mem_of_mem_filter hp)
  have hmin : ∀ t : PyFloat × PyFloat → Bool,
      Unit01 (level ar (minLevel .one ((pairs.filter t).map Prod.fst))) := by
    intro t
    rcases minLevel_cases .one ((pairs.filter t).map Prod.fst) with hone | hmem
    · rw [hone, level_one]
      exact ⟨by decide, le_refl _⟩
    · obtain ⟨p, hp, heq⟩ := List.mem_map.mp hmem
      rw [← heq]
      exact h p (List.mem_of_mem_filter hp)
  unfold breachBracket
  cases rule.direction with
  | above => exact ⟨(hmin _).complement, (hmax _).complement⟩
  | below => exact ⟨hmax _, hmin _⟩

/-- What every row of the window is. -/
structure RowFits (row : RiskStep) : Prop where
  step : row.step ≤ 1024
  lower : Unit01 row.breachLower
  upper : Unit01 row.breachUpper

theorem riskStep_defined (hspell : FloatSpelling ar rt) (hl : Levels quantiles)
    (rule : ThresholdRule) {n : Nat} {point : ForecastPoint} (hstep : point.step = n)
    (hn : n ≤ 1024) (h : PointFits ar quantiles point) :
    ∃ row, riskStep ar quantiles rule n point = .ok row ∧ RowFits row := by
  have hfinite : (point.quantiles.map Prod.snd).any (fun v => !v.isFinite) = false := by
    rw [List.any_eq_false]
    intro v hv
    obtain ⟨f, hf, rfl⟩ := List.mem_map.mp hv
    rw [h.finite f hf]
    decide
  have hunit : ∀ p ∈ quantiles.zip (point.quantiles.map Prod.snd), Unit01 (level ar p.1) :=
    fun p hp => hl.unit hspell (List.of_mem_zip hp).1
  obtain ⟨hlower, hupper⟩ := breachBracket_unit rule hunit
  refine ⟨⟨n, _, _, medianCrosses ar rule point⟩, ?_, hn, hlower, hupper⟩
  unfold riskStep
  simp only
  rw [if_neg (by rw [not_not]; exact hstep), stepValues_fits hspell hl h]
  simp only
  rw [if_neg (by rw [hfinite, h.ascending]; decide)]

/-- **The loop over the steps of a forecast comes through.** -/
theorem riskSteps_defined (hspell : FloatSpelling ar rt) (hl : Levels quantiles)
    (rule : ThresholdRule) {points : List ForecastPoint} {n : Nat}
    (hsteps : points.map ForecastPoint.step = List.range' n points.length)
    (hn : n + points.length ≤ 1025) (hfits : ∀ point ∈ points, PointFits ar quantiles point) :
    ∃ rows, riskSteps ar quantiles rule n points = .ok rows ∧ ∀ row ∈ rows, RowFits row := by
  induction points generalizing n with
  | nil => exact ⟨[], rfl, fun row hrow => by cases hrow⟩
  | cons point points ih =>
    rw [List.map_cons, List.length_cons, List.range'_succ] at hsteps
    obtain ⟨hstep, hsteps⟩ := List.cons.inj hsteps
    rw [List.length_cons] at hn
    obtain ⟨row, hrow, hrowfits⟩ := riskStep_defined hspell hl rule hstep (by omega)
      (hfits point List.mem_cons_self)
    obtain ⟨rows, hrows, hall⟩ := ih hsteps (by omega)
      (fun p hp => hfits p (List.mem_cons_of_mem _ hp))
    refine ⟨row :: rows, ?_, ?_⟩
    · unfold riskSteps
      rw [hrow, hrows]
      rfl
    · intro r hr
      rcases List.mem_cons.mp hr with rfl | hr
      · exact hrowfits
      · exact hall r hr

theorem Levels.checked (hl : Levels quantiles) :
    (quantiles.isEmpty || 99 < quantiles.length ||
      quantiles.any (fun q => !q.isFinite || !(PyFloat.zero.lt q && q.lt .one)) ||
      !PyFloat.increasing quantiles || !quantiles.any (fun q => q.eq .half)) = false := by
  have hany : quantiles.any (fun q => !q.isFinite || !(PyFloat.zero.lt q && q.lt .one)) =
      false := by
    rw [List.any_eq_false]
    intro q hq
    have hpos : PyFloat.zero.lt q = true := by
      rw [PyFloat.lt_iff (by decide) (hl.finite q hq), PyFloat.zero_value]
      exact hl.pos q hq
    have hbelow : q.lt .one = true := by
      rw [PyFloat.lt_iff (hl.finite q hq) (by decide), one_value]
      exact hl.below q hq
    rw [hl.finite q hq, hpos, hbelow]
    decide
  have hfew := hl.few
  rw [hl.ne_nil, hany, hl.increasing, hl.median, decide_eq_false (by omega)]
  rfl

theorem ForecastOf.checked (hspell : FloatSpelling ar rt)
    (hof : ForecastOf ar request provider forecast context) :
    checkForecast ar forecast = .ok () := by
  obtain ⟨_, hw⟩ := hof.written hspell
  have hlength := congrArg List.length hof.steps
  rw [List.length_map, List.length_range'] at hlength
  have hle := hof.accepted.atMost
  have hge := hof.accepted.atLeast
  unfold checkForecast
  simp only
  rw [if_neg (by rw [hw.contract, not_not]), hw.quantiles, hof.accepted.levels.checked,
    if_neg (by decide), hw.horizon, if_neg ?_, hw.output]
  · show (if forecast.receipt.outputSha256 ≠ forecast.receipt.outputSha256 then _ else _) = _
    rw [if_neg (by rw [not_not])]
    rfl
  · rw [hlength]
    simp only [Bool.or_eq_true, Bool.not_eq_true', Bool.and_eq_false_iff, decide_eq_false_iff_not,
      decide_eq_true_eq]
    omega

/-- A rule with a finite threshold and an alert level in (0, 1]. -/
structure RuleFits (rule : ThresholdRule) : Prop where
  threshold : rule.threshold.isFinite = true
  alertLevel : rule.alertLevel.isFinite = true
  pos : 0 < rule.alertLevel.value
  atMost : rule.alertLevel.value ≤ 1

theorem validateRule_fits {rule : ThresholdRule} (h : RuleFits rule) :
    validateRule rule = .ok () := by
  have hpos : PyFloat.zero.lt rule.alertLevel = true := by
    rw [PyFloat.lt_iff (by decide) h.alertLevel, PyFloat.zero_value]
    exact h.pos
  have hmost : rule.alertLevel.le .one = true := by
    rw [PyFloat.le_iff h.alertLevel (by decide), one_value]
    exact h.atMost
  unfold validateRule
  rw [h.threshold, h.alertLevel, hpos, hmost]
  rfl

theorem optionalStep_encodable {rows : List RiskStep} (hrows : ∀ row ∈ rows, RowFits row)
    (p : RiskStep → Bool) :
    (optionalStep ((rows.find? p).map RiskStep.step)).encodable = true := by
  cases hfind : rows.find? p with
  | none => rfl
  | some row =>
    have hstep := (hrows row (List.mem_of_find?_eq_some hfind)).step
    show decide ((decimal (row.step : Int).natAbs).length ≤ 4300) = true
    rw [Int.natAbs_natCast]
    exact decide_eq_true (decimal_length_short (by omega))

theorem optionalStep_strings (step : Option Nat) :
    (optionalStep step).allStrings noSurrogates = true := by
  cases step with
  | none => rfl
  | some n => rfl

theorem anyBreach_unit {rows : List RiskStep} (hrows : ∀ row ∈ rows, RowFits row) :
    Unit01 (anyBreach rows).lower ∧ Unit01 (anyBreach rows).upper := by
  constructor
  · show Unit01 (maxBound (rows.map RiskStep.breachLower))
    rcases maxBound_cases (rows.map RiskStep.breachLower) with hzero | hmem
    · rw [hzero]
      exact ⟨le_refl _, by decide⟩
    · obtain ⟨row, hrow, heq⟩ := List.mem_map.mp hmem
      rw [← heq]
      exact (hrows row hrow).lower
  · show Unit01 (min 1 (rows.map RiskStep.breachUpper).sum)
    have hsum : 0 ≤ (rows.map RiskStep.breachUpper).sum := by
      apply List.sum_nonneg
      intro b hb
      obtain ⟨row, hrow, rfl⟩ := List.mem_map.mp hb
      exact (hrows row hrow).upper.1
    exact ⟨le_min (by decide) hsum, min_le_left _ _⟩

/-- The report of a digestible receipt can be digested. -/
theorem report_digest (hspell : FloatSpelling ar rt)
    (hof : ForecastOf ar request provider forecast context) {rule : ThresholdRule}
    (hrule : RuleFits rule) (hdigestible : Digestible request provider) {rows : List RiskStep}
    (hrows : ∀ row ∈ rows, RowFits row) {receiptSha256 : PyStr}
    (hreceipt : noSurrogates receiptSha256 = true) :
    ∃ digest, sha256Json ar.toRuntime ((riskReport ar forecast rule rows receiptSha256).body ar)
      = .ok digest := by
  obtain ⟨hprovider, hw⟩ := hof.written hspell
  obtain ⟨hlower, hupper⟩ := anyBreach_unit hrows
  have hconvert : ∀ x : Rat, Unit01 x → (ar.ofRat x).isFinite = true :=
    fun x hx => hspell.ofRat_finite x hx.1 hx.2
  have hsteps : Json.encodableItems (rows.map (RiskStep.asdict ar)) = true := by
    rw [encodableItems_eq, List.all_map, List.all_eq_true]
    intro row hrow
    have hfits := hrows row hrow
    have hstep := hfits.step
    have hshort : (decimal row.step).length ≤ 4300 := decimal_length_short (by omega)
    simp only [Function.comp_apply, RiskStep.asdict, Json.encodable, Json.encodableFields,
      hconvert _ hfits.lower, hconvert _ hfits.upper, Int.natAbs_natCast, decide_eq_true hshort,
      Bool.and_true]
  have htexts : Json.allStringsItems noSurrogates (rows.map (RiskStep.asdict ar)) = true := by
    rw [allStringsItems_eq, List.all_map, List.all_eq_true]
    intro row _
    simp only [Function.comp_apply, RiskStep.asdict, Json.allStrings, Json.allStringsFields]
    decide
  have houtput := hspell.digest_noSurrogates hw.output
  have hlimitations : riskLimitations.all noSurrogates = true := by decide
  have hdirection : noSurrogates rule.direction.value = true := by
    cases rule.direction with
    | above => decide
    | below => decide
  have hsemantics : noSurrogates (riskReport ar forecast rule rows receiptSha256).eventSemantics
      = true := by
    unfold riskReport
    simp only
    cases rule.direction with
    | above =>
      show noSurrogates (py "STRICT_GREATER_THAN") = true
      decide
    | below =>
      show noSurrogates (py "STRICT_LESS_THAN") = true
      decide
  apply hspell.defined.mpr
  constructor
  · simp only [RiskReport.body, riskReport, ThresholdRule.asdict, Json.encodable,
      Json.encodableFields, hrule.threshold, hrule.alertLevel, hsteps, firstAtOrAbove,
      optionalStep_encodable hrows, hconvert _ hlower, hconvert _ hupper, strings_encodable,
      Bool.and_true]
  · simp only [RiskReport.body, ThresholdRule.asdict, Json.allStrings, Json.allStringsFields,
      hsemantics]
    simp only [riskReport, hw.signalId, hw.plain, hprovider, hdigestible.1, hdirection, htexts,
      optionalStep_strings, hreceipt, houtput, strings_noSurrogates hlimitations, anyBreach,
      Bool.and_true]
    decide

/-- **The risk window is derived exactly if the receipt is digestible.** -/
theorem deriveRiskWindow_defined (hspell : FloatSpelling ar rt)
    (hof : ForecastOf ar request provider forecast context) {rule : ThresholdRule}
    (hrule : RuleFits rule) :
    (∃ report, deriveRiskWindow ar forecast rule = .ok report) ↔ Digestible request provider := by
  rw [← receipt_digest hspell hof]
  constructor
  · intro h
    obtain ⟨report, hreport⟩ := h
    obtain ⟨_, _, receiptSha256, _, _, hreceipt, _⟩ := deriveRiskWindow_report hreport
    exact ⟨receiptSha256, hreceipt⟩
  · intro h
    obtain ⟨receiptSha256, hreceipt⟩ := h
    have hdigestible := (receipt_digest hspell hof).mp ⟨receiptSha256, hreceipt⟩
    obtain ⟨_, hw⟩ := hof.written hspell
    have hlength := congrArg List.length hof.steps
    rw [List.length_map, List.length_range'] at hlength
    have hle := hof.accepted.atMost
    have hge := hof.accepted.atLeast
    have hsteps := hof.steps
    rw [← hlength] at hsteps
    obtain ⟨rows, hrows, hall⟩ := riskSteps_defined hspell hof.accepted.levels rule hsteps
      (by omega) hof.fits
    obtain ⟨digest, hdigest⟩ := report_digest hspell hof hrule hdigestible hall
      (hspell.digest_noSurrogates hreceipt)
    refine ⟨{ riskReport ar forecast rule rows receiptSha256 with reportSha256 := digest }, ?_⟩
    unfold deriveRiskWindow
    rw [validateRule_fits hrule, hof.checked hspell, hw.quantiles, hrows, hreceipt]
    show (ForecastExn.lift (sha256Json ar.toRuntime _) >>= _) = _
    rw [hdigest]
    rfl

end Fits

/-! ## §7. The result. -/

/-- **What the loom returns fits the risk window.**  Whatever the request and the
provider: the keys of the levels are distinct, every step carries exactly these with
values that ascend with the level (none was replaced when its dict was filled), and a rule
with a finite threshold and an alert level in (0, 1] is accepted exactly if the receipt of the
forecast can be digested. -/
theorem forecast_fits_risk (ar : Arithmetic) (rt : Interpreter) (hspell : FloatSpelling ar rt)
    (request : ForecastRequest) (provider : ForecastProvider) (forecast : GovernedForecast)
    (h : runForecast ar request provider = .ok forecast) :
    (request.quantiles.Pairwise (fun a b => a.value < b.value) ∧
      (request.quantiles.map (quantileKey ar)).Nodup) ∧
    (∀ point ∈ forecast.points,
      filled point.quantiles = point.quantiles ∧
      point.quantiles.map Prod.fst = request.quantiles.map (quantileKey ar) ∧
      (point.quantiles.map Prod.snd).Pairwise (fun a b => a.value ≤ b.value)) ∧
    ∀ rule, RuleFits rule →
      ((∃ report, deriveRiskWindow ar forecast rule = .ok report) ↔
        Digestible request provider) := by
  obtain ⟨context, hof⟩ := runForecast_receipt h
  have hlevels := hof.accepted.levels
  refine ⟨⟨hlevels.pairwise, hlevels.keys_nodup hspell⟩, ?_, ?_⟩
  · intro point hpoint
    have hfits := hof.fits point hpoint
    have hnodup := hlevels.keys_nodup hspell
    rw [← hfits.keys] at hnodup
    exact ⟨filled_of_nodup hnodup, hfits.keys, hfits.pairwise⟩
  · intro rule hrule
    exact deriveRiskWindow_defined hspell hof hrule

/-! Three quartiles, and an interpreter that spells the floats of their forecast as
`repr` does. -/

/-- `Decimal(x)` of a float that is not negative: all of its digits. -/
def exactDecimal (x : PyFloat) : Decimal :=
  let m := if x.exponent = 0 then x.mantissa else x.mantissa + 2 ^ 52
  let e := Max.max x.exponent 1
  if 1075 ≤ e then ⟨m * 2 ^ (e - 1075), 0⟩ else ⟨m * 5 ^ (1075 - e), 1075 - e⟩

theorem exactDecimal_value (x : PyFloat) : (exactDecimal x).value = x.magnitude := by
  unfold exactDecimal PyFloat.magnitude Decimal.value
  simp only
  generalize (if x.exponent = 0 then x.mantissa else x.mantissa + 2 ^ 52) = m
  generalize Max.max x.exponent 1 = e
  by_cases he : 1075 ≤ e
  · rw [if_pos he, if_pos he]
    rfl
  · rw [if_neg he, if_neg he, Rat.mkRat_eq_div, Rat.mkRat_eq_div]
    generalize 1075 - e = k
    have hten : (10 : Rat) ^ k = 5 ^ k * 2 ^ k := by
      rw [← mul_pow]
      norm_num
    push_cast
    rw [hten, mul_comm (m : Rat), mul_div_mul_left]
    positivity

/-- The floats of the sample: their whole part and the digits after the point. -/
def sampleSpellings : List (PyFloat × Nat × PyStr) := [
  (⟨0⟩, 0, [48]), (.half, 0, [53]), (.one, 1, [48]), (⟨0x3FD0000000000000⟩, 0, [50, 53]),
  (⟨0x3FE8000000000000⟩, 0, [55, 53]), (.nearest (889 / 10000), 0, [48, 56, 56, 57])]

def spelling (entry : PyFloat × Nat × PyStr) : PyStr := decimal entry.2.1 ++ 46 :: entry.2.2

/-- `repr` of the floats of the sample; others are numbered. -/
def sampleRepr (f : PyFloat) : PyStr :=
  match sampleSpellings.find? (fun entry => entry.1 = f) with
  | some entry => spelling entry
  | none => decimal f.bits.toNat ++ py "e0"

def sampleFloat (s : PyStr) : PyFloat :=
  match sampleSpellings.find? (fun entry => spelling entry = s) with
  | some entry => entry.1
  | none => ⟨BitVec.ofNat 64 (natOfDigits (s.takeWhile isDigit))⟩

def sampleInterpreter : Interpreter where
  toRuntime := { Runtime.ascii with floatRepr := sampleRepr }
  floatOfText := sampleFloat
  strRepr s := [39] ++ s ++ [39]
  scanDepth := 1000
  walkDepth := 900
  hmacSha256 _ _ := []
  fromisoformat_fails := integerRuntime.fromisoformat_fails
  toDouble := id
  toDouble_mono _ _ h := h
  toDouble_int := id_exact

theorem sampleInterpreter_repr : ReprRoundTrip sampleInterpreter := by
  intro f _
  show FloatText (sampleRepr f) ∧ sampleFloat (sampleRepr f) = f
  unfold sampleRepr
  cases hfind : sampleSpellings.find? (fun entry => entry.1 = f) with
  | some entry =>
    have hmem := List.mem_of_find?_eq_some hfind
    have hfloat : entry.1 = f := by simpa using List.find?_some hfind
    have hdigits : ∀ e ∈ sampleSpellings, e.2.2 ≠ [] ∧ e.2.2.all isDigit = true := by decide
    have hback : ∀ e ∈ sampleSpellings, sampleFloat (spelling e) = e.1 := by decide +kernel
    obtain ⟨hne, hall⟩ := hdigits entry hmem
    simp only
    constructor
    · cases hfraction : entry.2.2 with
      | nil => exact absurd hfraction hne
      | cons d ds =>
        rw [hfraction, List.all_cons, Bool.and_eq_true, List.all_eq_true] at hall
        refine ⟨false, decimal entry.2.1, 46 :: d :: ds, [], ?_, decimal_whole _,
          .inr ⟨d, ds, rfl, hall.1, hall.2⟩, .inl rfl, by simp⟩
        unfold spelling
        rw [hfraction]
        simp [signText]
    · rw [hback entry hmem, hfloat]
  | none =>
    have he : py "e0" = [101, 48] := by decide
    have hpoint : ∀ e ∈ sampleSpellings, 46 ∈ spelling e :=
      fun e _ => List.mem_append_right _ List.mem_cons_self
    have hno : sampleSpellings.find? (fun entry => spelling entry = decimal f.bits.toNat ++ py "e0")
        = none := by
      rw [List.find?_eq_none]
      intro e hmem heq
      have hdot := hpoint e hmem
      rw [decide_eq_true_eq] at heq
      rw [heq, he] at hdot
      rcases List.mem_append.mp hdot with h | h
      · have hdigit := isDigit_of_mem_decimal h
        exact absurd hdigit (by decide)
      · exact absurd h (by decide)
    simp only
    constructor
    · rw [he]
      exact ⟨false, decimal f.bits.toNat, [], [101, 48], by simp [signText], decimal_whole _,
        .inl rfl, .inr ⟨[], 48, [], .inr (.inr rfl), rfl, by decide, fun c hc => by cases hc⟩,
        by simp⟩
    · unfold sampleFloat
      rw [hno]
      simp only
      rw [he]
      have htake := (@takeWhile_digits _ [101, 48]
        (fun c hc => isDigit_of_mem_decimal (n := f.bits.toNat) hc)
        (fun c hc => by cases hc; rfl)).1
      rw [htake, natOfDigits_decimal, BitVec.ofNat_toNat]
      simp

/-- A result that is finite, or else 1. -/
def keptFinite (x : PyFloat) : PyFloat := if x.isFinite then x else .one

theorem keptFinite_finite (x : PyFloat) : (keptFinite x).isFinite = true := by
  unfold keptFinite
  split
  · assumption
  · decide

def sampleArithmetic : Arithmetic where
  toRuntime := sampleInterpreter.toRuntime
  add := Arithmetic.binary64.add
  sub := Arithmetic.binary64.sub
  mul := Arithmetic.binary64.mul
  div := Arithmetic.binary64.div
  sqrt := Arithmetic.binary64.sqrt
  log := Arithmetic.binary64.log
  log2 := Arithmetic.binary64.log2
  ofInt := Arithmetic.binary64.ofInt
  divInt := Arithmetic.binary64.divInt
  round4 x := keptFinite (Arithmetic.binary64.round4 x)
  fsum := Arithmetic.binary64.fsum
  ofRat x := keptFinite (.nearest x)
  toDecimal := exactDecimal
  toDecimal_zero := by decide +kernel
  toDecimal_one := by decide +kernel

theorem sampleArithmetic_spelling : FloatSpelling sampleArithmetic sampleInterpreter where
  runtime := rfl
  roundTrip := sampleInterpreter_repr
  hex := polynomialDigest_hex
  order := by
    have hvalue : ∀ p : PyFloat, 0 ≤ p.value → p.magnitude = p.value := by
      intro p h
      have hmagnitude : 0 ≤ p.magnitude := by
        rw [← exactDecimal_value]
        exact Decimal.value_nonneg _
      unfold PyFloat.value at h ⊢
      by_cases hp : p.negative = true
      · rw [if_pos hp] at h ⊢
        linarith
      · rw [if_neg hp]
    intro p q _ _ hp hlt
    show (exactDecimal p).value < (exactDecimal q).value
    rw [exactDecimal_value, exactDecimal_value, hvalue p hp, hvalue q (by linarith)]
    exact hlt
  ofRat_finite _ _ _ := keptFinite_finite _
  round4_finite _ _ _ _ := keptFinite_finite _

def quartileRequest : ForecastRequest where
  signalId := py "latency"
  values := [some .one]
  horizon := 1
  quantiles := [⟨0x3FD0000000000000⟩, .half, ⟨0x3FE8000000000000⟩]

/-- A provider that expects one value for certain. -/
def certainProvider (name : PyStr) : ForecastProvider where
  name := name
  forecast _ horizon quantiles :=
    .ok (List.replicate horizon (quantiles.map (fun q => (q, .one))))

theorem sampleRule_fits : RuleFits sampleRule := by
  refine ⟨by decide, by decide, ?_, ?_⟩
  · decide +kernel
  · decide +kernel

theorem forecast_fits_risk_sample : ∃ forecast,
    runForecast sampleArithmetic quartileRequest (certainProvider (py "certain")) = .ok forecast ∧
    quartileRequest.quantiles.map (quantileKey sampleArithmetic) = [py "q25", py "q50", py "q75"] ∧
    ∃ report, deriveRiskWindow sampleArithmetic forecast sampleRule = .ok report := by
  have hrun : (runForecast sampleArithmetic quartileRequest
      (certainProvider (py "certain"))).toOption.isSome = true := by decide +kernel
  cases hf : runForecast sampleArithmetic quartileRequest (certainProvider (py "certain")) with
  | error e =>
    rw [hf] at hrun
    cases hrun
  | ok forecast =>
    obtain ⟨_, _, hwindow⟩ := forecast_fits_risk sampleArithmetic sampleInterpreter
      sampleArithmetic_spelling quartileRequest (certainProvider (py "certain")) forecast hf
    have hdigestible : Digestible quartileRequest (certainProvider (py "certain")) :=
      ⟨by decide, by decide⟩
    exact ⟨forecast, rfl, by decide +kernel, (hwindow sampleRule sampleRule_fits).mpr hdigestible⟩

/-- The name of a provider is a lone surrogate: the forecast is returned, and no rule
is accepted. -/
theorem forecast_unfit_name : ¬ ∀ (ar : Arithmetic) (rt : Interpreter), FloatSpelling ar rt →
    ∀ request provider forecast, runForecast ar request provider = .ok forecast →
      (request.quantiles.map (quantileKey ar)).Nodup ∧
      (∀ point ∈ forecast.points,
        point.quantiles.map Prod.fst = request.quantiles.map (quantileKey ar) ∧
        (point.quantiles.map Prod.snd).Pairwise (fun a b => a.value ≤ b.value)) ∧
      ∀ rule, RuleFits rule → ∃ report, deriveRiskWindow ar forecast rule = .ok report := by
  intro hclaim
  have hrun : (runForecast sampleArithmetic quartileRequest
      (certainProvider [0xD800])).toOption.isSome = true := by decide +kernel
  cases hf : runForecast sampleArithmetic quartileRequest (certainProvider [0xD800]) with
  | error e =>
    rw [hf] at hrun
    cases hrun
  | ok forecast =>
    obtain ⟨_, _, hwindow⟩ := hclaim sampleArithmetic sampleInterpreter sampleArithmetic_spelling
      quartileRequest (certainProvider [0xD800]) forecast hf
    obtain ⟨context, hof⟩ := runForecast_receipt hf
    have hdigestible := (deriveRiskWindow_defined sampleArithmetic_spelling hof sampleRule_fits).mp
      (hwindow sampleRule sampleRule_fits)
    exact absurd hdigestible.1 (by decide)

end Lyte
