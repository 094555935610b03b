import Lyte.Domain.RoundTrip
import Lyte.Intelligence.VerifierAgreement

/-
  Lyte.Intelligence.VerifierAcceptance — the browser accepts what is emitted.

  The payload of an emitted envelope is followed through `JSON.parse`: field by
  field what the browser reads is what the service wrote (`get_page`), and point
  by point the rows that the browser expects are the steps of the report.

      verifier_agrees   what is emitted is accepted; what is accepted carries
                        what the engine computes
-/

namespace Lyte

open JsValue

/-! ## §1. Values in the browser. -/

section Page

variable (ar : Arithmetic)

mutual
/-- A value as `JSON.parse` returns it: every number is a double. -/
def Json.js : Json → JsValue
  | .null => .null
  | .bool b => .bool b
  | .int n => .number (ar.ofInt n)
  | .float f => .number f
  | .str s => .string s
  | .list xs => .array (jsItems xs)
  | .dict fs => .object (jsFields fs)

def Json.jsItems : List Json → List JsValue
  | [] => []
  | x :: xs => x.js :: jsItems xs

def Json.jsFields : List (PyStr × Json) → List (PyStr × JsValue)
  | [] => []
  | (k, v) :: fs => (k, v.js) :: jsFields fs
end

attribute [local simp] Json.js Json.jsItems Json.jsFields

theorem jsItems_eq (xs : List Json) : Json.jsItems ar xs = xs.map (Json.js ar) := by
  induction xs with
  | nil => rfl
  | cons x xs ih =>
    unfold Json.jsItems
    rw [ih, List.map_cons]

theorem jsFields_eq (fs : List (PyStr × Json)) :
    Json.jsFields ar fs = fs.map (fun f => (f.1, f.2.js ar)) := by
  induction fs with
  | nil => rfl
  | cons f fs ih =>
    unfold Json.jsFields
    rw [ih, List.map_cons]

/-- What the browser reads of a value that was written as canonical text. -/
def page (v : Json) : JsValue := v.canonical.js ar

/-- `JSON.parse` reads the text of a value as the value: doubles are preserved. -/
def Parses (parse : PyStr → Option JsValue) (v : Json) : Prop :=
  ∀ text, canonicalJson ar.toRuntime v = .ok text → parse text = some (page ar v)

theorem page_list (xs : List Json) : page ar (.list xs) = .array (xs.map (page ar)) := by
  show ((Json.list xs).canonical).js ar = _
  rw [Json.canonical, Json.js, jsItems_eq, canonicalItems_eq, List.map_map]
  rfl

theorem page_dict (fs : List (PyStr × Json)) :
    page ar (.dict fs) = .object (sortByKey (fs.map (fun f => (f.1, page ar f.2)))) := by
  show ((Json.dict fs).canonical).js ar = _
  rw [Json.canonical, Json.js, jsFields_eq, canonicalFields_eq, ← sortByKey_map, List.map_map]
  rfl

@[simp] theorem page_str (s : PyStr) : page ar (.str s) = .string s := by
  unfold page Json.canonical Json.js
  rfl

@[simp] theorem page_bool (b : Bool) : page ar (.bool b) = .bool b := by
  unfold page Json.canonical Json.js
  rfl

@[simp] theorem page_null : page ar .null = .null := by
  unfold page Json.canonical Json.js
  rfl

@[simp] theorem page_float (x : PyFloat) : page ar (.float x) = .number x := by
  unfold page Json.canonical Json.js
  rfl

@[simp] theorem page_int (n : Int) : page ar (.int n) = .number (ar.ofInt n) := by
  unfold page Json.canonical Json.js
  rfl

end Page

/-- A key is looked up in any order of the fields. -/
theorem lookup_perm {β : Type} {fs gs : List (PyStr × β)} (h : fs.Perm gs)
    (hn : (fs.map Prod.fst).Nodup) (k : PyStr) : fs.lookup k = gs.lookup k := by
  induction h with
  | nil => rfl
  | cons f h ih =>
    rw [List.map_cons, List.nodup_cons] at hn
    rw [List.lookup_cons, List.lookup_cons, ih hn.2]
  | swap f g l =>
    obtain ⟨k₁, v₁⟩ := f
    obtain ⟨k₂, v₂⟩ := g
    simp only [List.map_cons, List.nodup_cons, List.mem_cons, not_or] at hn
    simp only [List.lookup_cons]
    by_cases h₁ : k = k₁
    · have h₂ : (k == k₂) = false := by
        apply beq_eq_false_iff_ne.mpr
        rintro rfl
        exact hn.1.1 h₁
      rw [h₂, beq_iff_eq.mpr h₁]
    · simp [beq_eq_false_iff_ne.mpr h₁]
  | trans h₁ _ ih₁ ih₂ =>
    rw [ih₁ hn]
    exact ih₂ ((h₁.map Prod.fst).nodup_iff.mp hn)

theorem lookup_mapped {β γ : Type} (g : β → γ) (fs : List (PyStr × β)) (k : PyStr) :
    (fs.map (fun f => (f.1, g f.2))).lookup k = (fs.lookup k).map g := by
  induction fs with
  | nil => rfl
  | cons f fs ih =>
    obtain ⟨l, v⟩ := f
    rw [List.map_cons, List.lookup_cons, List.lookup_cons, ih]
    cases k == l <;> rfl

/-- **A field that was written is read back**. -/
theorem get_page (ar : Arithmetic) {fs : List (PyStr × Json)} (hn : (fs.map Prod.fst).Nodup)
    (k : PyStr) : get k (some (page ar (.dict fs))) = (fs.lookup k).map (page ar) := by
  rw [page_dict]
  have hkeys : (fs.map (fun f => (f.1, page ar f.2))).map Prod.fst = fs.map Prod.fst := by
    rw [List.map_map]
    rfl
  show (sortByKey (fs.map (fun f => (f.1, page ar f.2)))).lookup k = _
  rw [lookup_perm (sortByKey_perm _) _ k, lookup_mapped]
  rw [((sortByKey_perm _).map Prod.fst).nodup_iff, hkeys]
  exact hn

/-! ## §2. Steps. -/

/-- Decimals and small integers as doubles, and digests as text. -/
structure Doubles (ar : Arithmetic) : Prop extends DecimalLevels ar where
  tenths : ∀ k : Nat, k ≤ 10 → (ar.ofRat (k / 10)).isFinite = true ∧
    |(ar.ofRat (k / 10)).value - k / 10| ≤ 1 / 10 ^ 12
  small : ∀ n : Nat, n ≤ 1024 → (ar.ofInt n).num = .fin n
  digest : ∀ bytes, isSha256Hex (ar.sha256 bytes) = true

/-- A bound of a bracket: a tenth between 0 and 1. -/
def Tenth (x : Rat) : Prop := ∃ k : Nat, k ≤ 10 ∧ x = k / 10

theorem tenth_zero : Tenth 0 := ⟨0, by decide, by norm_num⟩

theorem tenth_one : Tenth 1 := ⟨10, by decide, by norm_num⟩

theorem Tenth.max {x y : Rat} (hx : Tenth x) (hy : Tenth y) : Tenth (max x y) := by
  rcases max_choice x y with h | h
  · rw [h]
    exact hx
  · rw [h]
    exact hy

theorem Tenth.min {x y : Rat} (hx : Tenth x) (hy : Tenth y) : Tenth (min x y) := by
  rcases min_choice x y with h | h
  · rw [h]
    exact hx
  · rw [h]
    exact hy

/-- The levels of the workbench and their complements. -/
theorem tenth_levels {q : Rat} (hq : q ∈ decimalQuantiles) :
    Tenth q ∧ Tenth ((100 - mathRound (q * 100)) / 100) := by
  have hround : mathRound (1 / 10 * 100) = 10 ∧ mathRound (1 / 2 * 100) = 50 ∧
      mathRound (9 / 10 * 100) = 90 := by decide +kernel
  obtain ⟨h10, h50, h90⟩ := hround
  simp only [decimalQuantiles, List.mem_cons, List.not_mem_nil, or_false] at hq
  rcases hq with rfl | rfl | rfl
  · rw [h10]
    exact ⟨⟨1, by decide, by norm_num⟩, ⟨9, by decide, by norm_num⟩⟩
  · rw [h50]
    exact ⟨⟨5, by decide, by norm_num⟩, ⟨5, by decide, by norm_num⟩⟩
  · rw [h90]
    exact ⟨⟨9, by decide, by norm_num⟩, ⟨1, by decide, by norm_num⟩⟩

/-- Every bound that the loop over the levels passes through is a tenth. -/
theorem tenth_narrow (rule : ThresholdRule) {pairs : List (Rat × PyFloat)}
    (hp : ∀ p ∈ pairs, p.1 ∈ decimalQuantiles) {bracket : Rat × Rat}
    (hb : Tenth bracket.1 ∧ Tenth bracket.2) :
    Tenth (pairs.foldl (narrow rule) bracket).1 ∧ Tenth (pairs.foldl (narrow rule) bracket).2 := by
  induction pairs generalizing bracket with
  | nil => exact hb
  | cons p pairs ih =>
    rw [List.foldl_cons]
    apply ih (fun r hr => hp r (List.mem_cons_of_mem _ hr))
    obtain ⟨hq, hcomplement⟩ := tenth_levels (hp p List.mem_cons_self)
    unfold narrow
    cases rule.direction with
    | above =>
      dsimp only
      split
      · exact ⟨hb.1, hb.2.min hcomplement⟩
      · exact ⟨hb.1.max hcomplement, hb.2⟩
    | below =>
      dsimp only
      split
      · exact ⟨hb.1.max hq, hb.2⟩
      · exact ⟨hb.1, hb.2.min hq⟩

theorem tenth_row (rule : ThresholdRule) (n : Nat) (values : List PyFloat) :
    Tenth (expectedRow rule n values).lo ∧ Tenth (expectedRow rule n values).hi := by
  apply tenth_narrow rule _ ⟨tenth_zero, tenth_one⟩
  intro p hp
  exact (List.of_mem_zip hp).1

section Emitted

variable {ar : Arithmetic} (hdoubles : Doubles ar)

include hdoubles

theorem close_tenth {x : Rat} (hx : Tenth x) :
    close (some (.number (ar.ofRat x))) x = true := by
  obtain ⟨k, hk, rfl⟩ := hx
  obtain ⟨hfinite, hvalue⟩ := hdoubles.tenths k hk
  unfold close
  rw [Bool.and_eq_true, decide_eq_true_eq]
  exact ⟨hfinite, hvalue⟩

theorem isNumber_small {n : Nat} (hn : n ≤ 1024) :
    isNumber (some (.number (ar.ofInt n))) n = true := by
  show (ar.ofInt n).num.pyEq (.fin n) = true
  rw [hdoubles.small n hn]
  simp [Num.pyEq]

omit hdoubles in
theorem step_nodup (row : RiskStep) : ∀ fs, row.asdict ar = .dict fs → (fs.map Prod.fst).Nodup := by
  intro fs h
  cases h
  simp

/-- A step that was written is accepted for its row. -/
theorem stepAccepted_page {row : ExpectedRow} (hlo : Tenth row.lo) (hhi : Tenth row.hi)
    (hstep : row.step ≤ 1024) : stepAccepted (page ar (row.risk.asdict ar)) row = true := by
  unfold stepAccepted RiskStep.asdict
  have hnodup := @step_nodup ar row.risk _ rfl
  simp only [get_page ar hnodup, List.lookup_cons, py_beq]
  simp [ExpectedRow.risk, isNumber_small hdoubles hstep, close_tenth hdoubles hlo,
    close_tenth hdoubles hhi, isBool]

omit hdoubles in
/-- The point of a step, as the browser reads it. -/
theorem pointValues_page {n : Nat} {values : List PyFloat} {a b c : PyFloat}
    (h : Ordered values a b c) :
    pointValues (page ar (ForecastPoint.asdict ⟨n, quantileKeys.zip values⟩)) = some values := by
  obtain ⟨rfl, ⟨ha, hb, hc⟩, hab, hbc⟩ := h
  have hnodup : (List.map Prod.fst
      [(py "step", Json.int n), (py "quantiles", .dict [(py "q10", .float a), (py "q50", .float b),
        (py "q90", .float c)])]).Nodup := by simp
  have hget : JsValue.get (py "quantiles")
      (some (page ar (ForecastPoint.asdict ⟨n, quantileKeys.zip [a, b, c]⟩)))
        = some (.object [(py "q10", .number a), (py "q50", .number b), (py "q90", .number c)]) := by
    have hsorted : strLe (py "q10") (py "q50") = true ∧ strLe (py "q50") (py "q90") = true := by
      decide +kernel
    show JsValue.get _ (some (page ar (.dict [(py "step", .int n), (py "quantiles",
      .dict [(py "q10", .float a), (py "q50", .float b), (py "q90", .float c)])]))) = _
    rw [get_page ar hnodup]
    simp [List.lookup_cons, py_beq, page_dict, sortByKey, insertByKey, hsorted]
  unfold pointValues
  rw [hget]
  have hkeys : [py "q10", py "q50", py "q90"].isPerm [py "q10", py "q50", py "q90"] = true :=
    List.isPerm_iff.mpr (.refl _)
  simp [quantileKeys, List.lookup_cons, py_beq, hkeys, ha, hb, hc, hab, hbc]

omit hdoubles in
theorem normalizeRow_workbench {row : List (PyFloat × PyFloat)} {l : List (PyStr × PyFloat)}
    (hlevels : DecimalLevels ar) (h : normalizeRow ar row workbenchQuantiles = .ok l)
    (hascending : PyFloat.ascending (l.map Prod.snd) = true) :
    ∃ values a b c, Ordered values a b c ∧ l = quantileKeys.zip values := by
  have hkeys := keys_workbench hlevels
  have hstep : ∀ q qs l, normalizeRow ar row (q :: qs) = .ok l → ∃ value rest,
      value.isFinite = true ∧ normalizeRow ar row qs = .ok rest ∧
      l = (quantileKey ar q, value) :: rest := by
    intro q qs l h
    unfold normalizeRow at h
    split at h
    · cases h
    · next value _ =>
      split at h
      · cases h
      · next hfinite =>
        obtain ⟨rest, hrest, h⟩ := Transact.ok_of_bind h
        cases h
        exact ⟨value, rest, by simpa using hfinite, hrest, rfl⟩
  obtain ⟨a, l₁, ha, h₁, rfl⟩ := hstep _ _ _ h
  obtain ⟨b, l₂, hb, h₂, rfl⟩ := hstep _ _ _ h₁
  obtain ⟨c, l₃, hc, h₃, rfl⟩ := hstep _ _ _ h₂
  cases h₃
  simp only [workbenchQuantiles, quantileKeys, List.map_cons, List.map_nil, List.cons.injEq] at hkeys
  refine ⟨[a, b, c], a, b, c, ⟨rfl, ⟨ha, hb, hc⟩, ?_⟩, ?_⟩
  · simpa [PyFloat.ascending, PyFloat.neighbours] using hascending
  · rw [hkeys.1, hkeys.2.1, hkeys.2.2.1]
    rfl

/-- **The rows that the browser expects are the steps of the engine**, for the points of a
forecast. -/
theorem expectedRows_page {rule : ThresholdRule} (hT : rule.threshold.isFinite = true) {n : Nat}
    {raw : List (List (PyFloat × PyFloat))} {points : List ForecastPoint}
    (h : normalizeRows ar workbenchQuantiles n raw = .ok points) (hn : n + raw.length ≤ 1025) :
    points.length = raw.length ∧ ∃ rows,
      riskSteps ar workbenchQuantiles rule n points = .ok (rows.map ExpectedRow.risk) ∧
      expectedRows rule n (points.map (fun p => page ar p.asdict))
        (rows.map (fun row => page ar (row.risk.asdict ar))) = some rows ∧
      rows.length = points.length ∧
      ∀ row ∈ rows, (Tenth row.lo ∧ Tenth row.hi) ∧ row.step ≤ 1024 := by
  induction raw generalizing n points with
  | nil =>
    cases h
    exact ⟨rfl, [], rfl, rfl, rfl, by simp⟩
  | cons row raw ih =>
    unfold normalizeRows at h
    obtain ⟨normalized, hnormalized, h⟩ := Transact.ok_of_bind h
    split at h
    · cases h
    · next hascending =>
      obtain ⟨rest, hrest, h⟩ := Transact.ok_of_bind h
      cases h
      have hbound : n + 1 + raw.length ≤ 1025 := by
        rw [List.length_cons] at hn
        omega
      have hsmall : n ≤ 1024 := by omega
      obtain ⟨hlength, rows, hsteps, hrows, hcount, htenth⟩ := ih hrest hbound
      obtain ⟨values, a, b, c, hordered, rfl⟩ :=
        normalizeRow_workbench hdoubles.toDecimalLevels hnormalized (by simpa using hascending)
      have htenths := tenth_row rule n values
      refine ⟨by simp [hlength], expectedRow rule n values :: rows, ?_, ?_, ?_, ?_⟩
      · unfold riskSteps
        rw [riskStep_workbench hdoubles.toDecimalLevels hT hordered, hsteps]
        rfl
      · rw [List.map_cons, List.map_cons]
        unfold expectedRows
        rw [pointValues_page hordered]
        have hnumber : isNumber (JsValue.get (py "step")
            (some (page ar (ForecastPoint.asdict ⟨n, quantileKeys.zip values⟩)))) n = true := by
          unfold ForecastPoint.asdict
          rw [get_page ar (by simp)]
          simp only [List.lookup_cons, py_beq, decide_true, Option.map_some, page_int]
          exact isNumber_small hdoubles hsmall
        simp only [hnumber, stepAccepted_page hdoubles htenths.1 htenths.2 hsmall, hrows,
          Bool.and_self, if_true, Option.map_some]
      · rw [List.length_cons, List.length_cons, hcount]
      · intro e he
        rcases List.mem_cons.mp he with rfl | he
        · exact ⟨htenths, hsmall⟩
        · exact htenth e he

end Emitted

/-! ## §3. What is emitted. -/

/-- A forecast and its report, as the forecast route made them for a body. -/
structure Emitted (ar : Arithmetic) (body : ForecastBody) (rule : ThresholdRule)
    (result : GovernedForecast) (risk : RiskReport) : Prop where
  threshold : rule.threshold.isFinite = true
  contract : result.receipt.contract = contractVersion
  signalId : result.receipt.signalId = body.signalId
  provider : result.receipt.provider = py "szl.robust-drift/v1"
  horizon : result.receipt.horizon = body.horizon
  quantiles : result.receipt.quantiles = body.quantiles
  digests : ∃ input output raw, result.receipt.inputSha256 = ar.sha256 input ∧
    result.receipt.outputSha256 = ar.sha256 output ∧ result.receipt.rawInputSha256 = ar.sha256 raw
  points : ∃ raw, normalizeRows ar body.quantiles 1 raw = .ok result.points ∧
    raw.length = body.horizon.toNat
  report : ∃ rows receipt digest,
    riskSteps ar body.quantiles rule 1 result.points = .ok rows ∧
    risk = { riskReport ar result rule rows (ar.sha256 receipt) with
      reportSha256 := ar.sha256 digest }

theorem sha256Text_eq {rt : Runtime} {text digest : PyStr} (h : sha256Text rt text = .ok digest) :
    text.any isSurrogate = false ∧ digest = rt.sha256 (text.flatMap utf8Bytes) := by
  unfold sha256Text utf8Encode at h
  by_cases hs : text.any isSurrogate = true
  · rw [if_pos hs] at h
    cases h
  · rw [if_neg hs] at h
    cases h
    exact ⟨by simpa using hs, rfl⟩

theorem sha256Json_eq {rt : Runtime} {v : Json} {digest : PyStr} (h : sha256Json rt v = .ok digest) :
    ∃ bytes, digest = rt.sha256 bytes := by
  obtain ⟨text, _, h⟩ := Transact.ok_of_bind h
  exact ⟨_, (sha256Text_eq h).2⟩

theorem ok_of_mapError {ε ε' α : Type} {f : ε → ε'} {x : Except ε α} {a : α}
    (h : x.mapError f = .ok a) : x = .ok a := by
  cases x with
  | error e => cases h
  | ok b =>
    cases h
    rfl

theorem forecast_emitted {ar : Arithmetic} {body : ForecastBody} {rule : ThresholdRule}
    {result : GovernedForecast} {risk : RiskReport}
    (h : forecast ar body rule = .ok (result, risk)) : Emitted ar body rule result risk := by
  obtain ⟨result', hresult, h⟩ := Transact.ok_of_bind (ok_of_mapError h)
  obtain ⟨risk', hrisk, h⟩ := Transact.ok_of_bind h
  cases h
  obtain ⟨⟨values, imputed⟩, _, hresult⟩ := Transact.ok_of_bind hresult
  obtain ⟨raw, _, hresult⟩ := Transact.ok_of_bind hresult
  split at hresult
  · cases hresult
  · next hlength =>
    obtain ⟨points, hpoints, hresult⟩ := Transact.ok_of_bind hresult
    obtain ⟨receipt, hreceipt, hresult⟩ := Transact.ok_of_bind hresult
    cases hresult
    obtain ⟨input, hinput, hreceipt⟩ := Transact.ok_of_bind hreceipt
    obtain ⟨output, houtput, hreceipt⟩ := Transact.ok_of_bind hreceipt
    obtain ⟨rawInput, hrawInput, hreceipt⟩ := Transact.ok_of_bind hreceipt
    cases hreceipt
    obtain ⟨inputBytes, rfl⟩ := sha256Json_eq (ok_of_lift hinput)
    obtain ⟨outputBytes, rfl⟩ := sha256Json_eq (ok_of_lift houtput)
    obtain ⟨rawBytes, rfl⟩ := sha256Json_eq (ok_of_lift hrawInput)
    obtain ⟨hT, rows, receiptSha256, digest, hrows, hreceipt, hdigest, rfl⟩ :=
      deriveRiskWindow_report hrisk
    obtain ⟨receiptBytes, rfl⟩ := sha256Json_eq hreceipt
    obtain ⟨digestBytes, rfl⟩ := sha256Json_eq hdigest
    exact {
      threshold := hT
      contract := rfl
      signalId := rfl
      provider := rfl
      horizon := rfl
      quantiles := rfl
      digests := ⟨inputBytes, outputBytes, rawBytes, rfl, rfl, rfl⟩
      points := ⟨raw, hpoints, not_not.mp hlength⟩
      report := ⟨rows, receiptBytes, digestBytes, hrows, rfl⟩ }

/-- The envelope as the browser receives it. -/
def InspectionEnvelope.js (e : InspectionEnvelope) : JsValue := .object [
  (py "schema", .string e.schema),
  (py "canonical_json", .string e.canonicalJson),
  (py "sha256", .string e.sha256),
  (py "hash_semantics", .string e.hashSemantics)]

/-- An envelope holds the text of its payload with the digest of that text. -/
theorem inspectionEnvelope_ok {ar : Arithmetic} {request forecast : List (PyStr × Json)}
    {revision : PyStr} {envelope : InspectionEnvelope}
    (h : inspectionEnvelope ar request forecast revision = .ok envelope) :
    isRevision revision = true ∧
      canonicalJson ar.toRuntime (inspectionPayload request forecast revision)
        = .ok envelope.canonicalJson ∧
      sha256Text ar.toRuntime envelope.canonicalJson = .ok envelope.sha256 ∧
      envelope.schema = py "szl.lyte.forecast-inspection-envelope/v1" ∧
      envelope.hashSemantics = py "CONTENT_INTEGRITY_NOT_SIGNATURE_OR_ACCURACY" := by
  unfold inspectionEnvelope at h
  simp only at h
  split at h
  · cases h
  · split at h
    · cases h
    · next hrevision =>
      split at h
      · cases h
      · split at h
        · cases h
        · obtain ⟨canonical, hcanonical, h⟩ := Transact.ok_of_bind h
          obtain ⟨digest, hdigest, h⟩ := Transact.ok_of_bind h
          cases h
          exact ⟨by simpa using hrevision, hcanonical, hdigest, rfl, rfl⟩

/-- What the route emits for a request of the workbench. -/
theorem inspectForecast_ok {ar : Arithmetic} {requested : WorkbenchRequest}
    {revision revisionAfter : Option PyStr} {envelope : InspectionEnvelope}
    (h : inspectForecast ar requested.body revision revisionAfter = .ok envelope) :
    ∃ result risk observed, revision = some observed ∧
      forecast ar requested.body ⟨requested.rule.threshold.sent, requested.rule.direction,
        requested.rule.alertLevel.sent⟩ = .ok (result, risk) ∧
      inspectionEnvelope ar requested.body.modelDump (forecastResponse ar result risk) observed
        = .ok envelope := by
  unfold inspectForecast at h
  split at h
  · cases h
  · split at h
    · cases h
    · split at h
      · cases h
      · cases h
      · next rule observed hrule =>
        cases hrule
        obtain ⟨⟨result, risk⟩, hforecast, h⟩ := Transact.ok_of_bind h
        simp only at h
        split at h
        · cases h
        · exact ⟨result, risk, observed, rfl, hforecast, ok_of_mapError h⟩

/-! ## §4. The fields of the payload. -/

section Fields

variable {ar : Arithmetic}

theorem payload_nodup (request forecast : List (PyStr × Json)) (revision : PyStr) :
    ∀ fs, inspectionPayload request forecast revision = .dict fs → (fs.map Prod.fst).Nodup := by
  intro fs h
  cases h
  simp

theorem modelDump_nodup (b : ForecastBody) : (b.modelDump.map Prod.fst).Nodup := by
  simp [ForecastBody.modelDump]

theorem rule_nodup (rule : ThresholdRule) :
    ∀ fs, rule.asdict = .dict fs → (fs.map Prod.fst).Nodup := by
  intro fs h
  cases h
  simp

theorem response_nodup (r : ForecastReceipt) : (r.response.map Prod.fst).Nodup := by
  simp [ForecastReceipt.response]

theorem forecastResponse_nodup (result : GovernedForecast) (risk : RiskReport) :
    ((forecastResponse ar result risk).map Prod.fst).Nodup := by
  simp [forecastResponse]

theorem asdict_nodup (r : RiskReport) : ((r.asdict ar).map Prod.fst).Nodup := by
  simp [RiskReport.asdict, RiskReport.body]

/-- A number arrives as a number equal to it. -/
theorem sent_eq {x : PyFloat} (h : x.isFinite = true) :
    x.sent.isFinite = true ∧ x.sent.eq x = true := by
  unfold PyFloat.sent
  by_cases hzero : x.eq .zero = true
  · rw [if_pos hzero]
    refine ⟨by decide, ?_⟩
    have hfinite : PyFloat.zero.isFinite = true := by decide
    unfold PyFloat.eq at hzero ⊢
    rw [PyFloat.num_of_finite h, PyFloat.num_of_finite hfinite] at hzero ⊢
    simp only [Num.pyEq, decide_eq_true_eq] at hzero ⊢
    exact hzero.symm
  · rw [if_neg hzero]
    exact ⟨h, PyFloat.eq_refl h⟩

theorem same_values {values : List (Option PyFloat)}
    (h : ∀ x ∈ values, ∀ v, x = some v → v.isFinite = true) :
    sameItems ((values.map (Option.map PyFloat.sent)).map (fun v => page ar (optionalFloat v)))
      (values.map observation) = true := by
  induction values with
  | nil => rfl
  | cons x values ih =>
    rw [List.map_cons, List.map_cons, List.map_cons]
    unfold sameItems
    rw [Bool.and_eq_true]
    refine ⟨?_, ih (fun y hy => h y (List.mem_cons_of_mem _ hy))⟩
    cases x with
    | none => simp [optionalFloat, observation, same, isNullText]
    | some v =>
      have hv := h _ List.mem_cons_self v rfl
      obtain ⟨hsent, heq⟩ := sent_eq hv
      simp [optionalFloat, observation, same, sameNumber, hsent, heq, hv]

theorem same_quantiles : same (page ar (.list (workbenchQuantiles.map .float))) quantileValues
    = true := by
  rw [page_list]
  unfold quantileValues workbenchQuantiles
  simp only [List.map_cons, List.map_nil, page_float]
  decide +kernel

theorem authority_page (request forecast : List (PyStr × Json)) {revision : PyStr}
    (h : isRevision revision = true) :
    authorityAccepted (some (page ar (inspectionPayload request forecast revision))) = true := by
  have hget := get_page ar (payload_nodup request forecast revision _ rfl)
  have hsource : ((List.map Prod.fst [(py "repository", Json.str (py "szl-holdings/lyte-services")),
      (py "revision", .str revision)])).Nodup := by simp
  unfold authorityAccepted inspectionPayload
  simp only [hget, List.lookup_cons, py_beq]
  simp [get_page ar hsource, List.lookup_cons, py_beq, isString, isBool, isHex, hexTest]
  simpa [isRevision] using h

theorem request_page (hdoubles : Doubles ar) (requested : WorkbenchRequest) :
    requestAccepted (some (page ar (.dict requested.body.modelDump))) requested = true := by
  have hget := get_page ar (modelDump_nodup requested.body)
  have hrule := get_page ar (rule_nodup ⟨requested.rule.threshold.sent, requested.rule.direction,
    requested.rule.alertLevel.sent⟩ _ rfl)
  have hvalues := @same_values ar _ requested.finite
  have hquantiles := @same_quantiles ar
  have hhorizon := isNumber_small hdoubles requested.horizon_le
  have hthreshold := (sent_eq requested.threshold_finite).2
  have halert := (sent_eq requested.alert_finite).2
  unfold requestAccepted
  simp only [hget]
  unfold ForecastBody.modelDump WorkbenchRequest.body riskBody ThresholdRule.asdict
  simp only [List.lookup_cons, py_beq]
  simp [hrule, List.lookup_cons, py_beq, isString, strictEq, hhorizon, hthreshold, halert,
    hquantiles, ProviderName.value]
  rw [page_list]
  unfold same
  rw [List.map_map]
  rw [List.map_map] at hvalues
  exact hvalues

theorem contracts_page {body : ForecastBody} {rule : ThresholdRule} {result : GovernedForecast}
    {risk : RiskReport} (h : Emitted ar body rule result risk)
    (hquantiles : body.quantiles = workbenchQuantiles)
    (hhorizon : isNumber (some (.number (ar.ofInt body.horizon))) body.horizon = true) :
    contractsAccepted (some (page ar (.dict body.modelDump)))
      (some (page ar (.dict (forecastResponse ar result risk)))) = true := by
  obtain ⟨rows, receipt, digest, hrows, rfl⟩ := h.report
  have hinput := get_page ar (modelDump_nodup body)
  have hforecast := get_page ar (@forecastResponse_nodup ar result
    { riskReport ar result rule rows (ar.sha256 receipt) with reportSha256 := ar.sha256 digest })
  have hreceipt := get_page ar (response_nodup result.receipt)
  have hrisk := get_page ar (@asdict_nodup ar
    { riskReport ar result rule rows (ar.sha256 receipt) with reportSha256 := ar.sha256 digest })
  have hsame := @same_quantiles ar
  have hnum : (ar.ofInt body.horizon).eq (ar.ofInt body.horizon) = true := by
    apply Num.pyEq_refl
    intro hnan
    unfold isNumber at hhorizon
    simp [hnan, Num.pyEq] at hhorizon
  unfold contractsAccepted
  simp only [hinput, hforecast]
  unfold ForecastBody.modelDump forecastResponse
  simp only [List.lookup_cons, py_beq]
  simp [hreceipt, hrisk]
  unfold ForecastReceipt.response RiskReport.asdict RiskReport.body riskReport
  simp [List.lookup_cons, py_beq, isString, isBool, strictEq, h.contract, h.provider, h.signalId,
    h.horizon, h.quantiles, hquantiles, hnum]
  exact hsame

theorem rule_page {body : ForecastBody} {rule : ThresholdRule} {result : GovernedForecast}
    {risk : RiskReport} (h : Emitted ar body rule result risk) (hbody : body.risk = some rule)
    (halert : rule.alertLevel.isFinite = true) :
    ruleAccepted (some (page ar (.dict body.modelDump))) (some (page ar (.dict (risk.asdict ar))))
      rule.direction = true := by
  obtain ⟨rows, receipt, digest, hrows, rfl⟩ := h.report
  have hinput := get_page ar (modelDump_nodup body)
  have hrisk := get_page ar (@asdict_nodup ar
    { riskReport ar result rule rows (ar.sha256 receipt) with reportSha256 := ar.sha256 digest })
  have hrule := get_page ar (rule_nodup rule _ rfl)
  unfold ruleAccepted
  simp only [hinput, hrisk]
  unfold ForecastBody.modelDump riskBody RiskReport.asdict RiskReport.body riskReport
  simp only [hbody]
  unfold ThresholdRule.asdict
  simp [List.lookup_cons, py_beq, hrule, strictEq, isString, PyFloat.eq_refl h.threshold,
    PyFloat.eq_refl halert] <;>
    cases rule.direction <;> rfl

theorem readRule_page {body : ForecastBody} {rule : ThresholdRule} (hbody : body.risk = some rule) :
    readRule (some (page ar (.dict body.modelDump))) = some rule := by
  have hinput := get_page ar (modelDump_nodup body)
  have hrule := get_page ar (rule_nodup rule _ rfl)
  unfold readRule
  simp only [hinput]
  unfold ForecastBody.modelDump riskBody
  simp only [hbody]
  unfold ThresholdRule.asdict
  simp only [List.lookup_cons, py_beq]
  simp [hrule, List.lookup_cons, py_beq, isString]
  cases rule with
  | mk threshold direction alertLevel => cases direction <;> simp [Direction.value]

theorem hex_page (hdoubles : Doubles ar) (bytes : List UInt8) :
    isHex 64 (some (.string (ar.sha256 bytes))) = true := hdoubles.digest bytes

theorem digests_page (hdoubles : Doubles ar) {body : ForecastBody} {rule : ThresholdRule}
    {result : GovernedForecast} {risk : RiskReport} (h : Emitted ar body rule result risk) :
    digestsAccepted (some (page ar (.dict result.receipt.response)))
      (some (page ar (.dict (risk.asdict ar)))) = true := by
  obtain ⟨rows, receipt, digest, hrows, rfl⟩ := h.report
  obtain ⟨input, output, raw, hinput, houtput, hraw⟩ := h.digests
  have hreceipt := get_page ar (response_nodup result.receipt)
  have hrisk := get_page ar (@asdict_nodup ar
    { riskReport ar result rule rows (ar.sha256 receipt) with reportSha256 := ar.sha256 digest })
  unfold digestsAccepted
  simp only [hreceipt, hrisk]
  unfold ForecastReceipt.response RiskReport.asdict RiskReport.body riskReport
  simp [List.lookup_cons, py_beq, strictEq, hinput, houtput, hraw, hex_page hdoubles]

/-! ## §5. The risk window. -/

theorem tenth_maxBound {bounds : List Rat} (h : ∀ b ∈ bounds, Tenth b) : Tenth (maxBound bounds) := by
  rcases maxBound_cases bounds with hzero | hmem
  · rw [hzero]
    exact tenth_zero
  · exact h _ hmem

theorem tenths_sum {bounds : List Rat} (h : ∀ b ∈ bounds, Tenth b) :
    ∃ k : Nat, bounds.sum = k / 10 := by
  induction bounds with
  | nil => exact ⟨0, by norm_num⟩
  | cons b bounds ih =>
    obtain ⟨k, _, hk⟩ := h b List.mem_cons_self
    obtain ⟨l, hl⟩ := ih (fun c hc => h c (List.mem_cons_of_mem _ hc))
    refine ⟨k + l, ?_⟩
    rw [List.sum_cons, hk, hl]
    push_cast
    ring

theorem tenth_union {bounds : List Rat} (h : ∀ b ∈ bounds, Tenth b) : Tenth (min 1 bounds.sum) := by
  obtain ⟨k, hk⟩ := tenths_sum h
  rw [hk]
  by_cases hle : k ≤ 10
  · exact tenth_one.min ⟨k, hle, rfl⟩
  · rw [min_eq_left]
    · exact tenth_one
    · have hcast : (10 : Rat) ≤ k := by exact_mod_cast Nat.le_of_not_le hle
      rw [le_div_iff₀ (by decide +kernel), one_mul]
      exact hcast

theorem isStep_page (hdoubles : Doubles ar) {step : Option Nat} (h : ∀ n, step = some n → n ≤ 1024) :
    isStep (some (page ar (optionalStep step))) step = true := by
  cases step with
  | none => simp [optionalStep, isStep]
  | some n =>
    simp only [optionalStep, page_int]
    exact isNumber_small hdoubles (h n rfl)

theorem find_step {rows : List RiskStep} {p : RiskStep → Bool} {n : Nat}
    (hsteps : ∀ row ∈ rows, row.step ≤ 1024) (h : (rows.find? p).map RiskStep.step = some n) :
    n ≤ 1024 := by
  obtain ⟨row, hrow, rfl⟩ := Option.map_eq_some_iff.mp h
  exact hsteps row (List.mem_of_find?_eq_some hrow)

/-- The bracket over the horizon as the report lists it. -/
def anyBody (ar : Arithmetic) (breach : AnyBreach) : Json := .dict [
  (py "lower", .float (ar.ofRat breach.lower)),
  (py "upper", .float (ar.ofRat breach.upper)),
  (py "method", .str breach.method)]

theorem any_page (breach : AnyBreach) :
    JsValue.get (py "lower") (some (page ar (anyBody ar breach)))
      = some (.number (ar.ofRat breach.lower)) ∧
    JsValue.get (py "upper") (some (page ar (anyBody ar breach)))
      = some (.number (ar.ofRat breach.upper)) ∧
    JsValue.get (py "method") (some (page ar (anyBody ar breach)))
      = some (.string breach.method) := by
  have hnodup : ∀ fs, anyBody ar breach = .dict fs → (fs.map Prod.fst).Nodup := by
    intro fs h
    cases h
    simp
  have hget := get_page ar (hnodup _ rfl)
  unfold anyBody
  simp [hget, List.lookup_cons, py_beq]

theorem window_page (hdoubles : Doubles ar) {result : GovernedForecast} {rule : ThresholdRule}
    {rows : List ExpectedRow} (receipt digest : PyStr)
    (htenth : ∀ row ∈ rows, (Tenth row.lo ∧ Tenth row.hi) ∧ row.step ≤ 1024) :
    windowAccepted (level ar rule.alertLevel) rows (some (page ar (.dict (RiskReport.asdict ar
      { riskReport ar result rule (rows.map ExpectedRow.risk) receipt with
        reportSha256 := digest })))) = true := by
  have hrisk := get_page ar (@asdict_nodup ar
    { riskReport ar result rule (rows.map ExpectedRow.risk) receipt with reportSha256 := digest })
  have hsteps : ∀ row ∈ rows.map ExpectedRow.risk, row.step ≤ 1024 := by
    intro row hrow
    obtain ⟨e, he, rfl⟩ := List.mem_map.mp hrow
    exact (htenth e he).2
  have hlower : Tenth (anyBreach (rows.map ExpectedRow.risk)).lower := by
    apply tenth_maxBound
    intro b hb
    simp only [List.map_map, List.mem_map, Function.comp_apply] at hb
    obtain ⟨e, he, rfl⟩ := hb
    exact (htenth e he).1.1
  have hupper : Tenth (anyBreach (rows.map ExpectedRow.risk)).upper := by
    apply tenth_union
    intro b hb
    simp only [List.map_map, List.mem_map, Function.comp_apply] at hb
    obtain ⟨e, he, rfl⟩ := hb
    exact (htenth e he).1.2
  obtain ⟨hlo, hhi, hmethod⟩ := @any_page ar (anyBreach (rows.map ExpectedRow.risk))
  have hany : JsValue.get (py "any_breach_over_horizon") (some (page ar (.dict (RiskReport.asdict ar
      { riskReport ar result rule (rows.map ExpectedRow.risk) receipt with
        reportSha256 := digest }))))
      = some (page ar (anyBody ar (anyBreach (rows.map ExpectedRow.risk)))) := by
    rw [hrisk]
    unfold RiskReport.asdict RiskReport.body riskReport
    simp [List.lookup_cons, py_beq, anyBody]
  rw [@windowAccepted_report ar _ _ _ { riskReport ar result rule (rows.map ExpectedRow.risk) receipt
    with reportSha256 := digest } rfl rfl rfl rfl rfl, hany, hlo, hhi, hmethod]
  simp only [hrisk]
  unfold RiskReport.asdict RiskReport.body riskReport
  simp only [List.cons_append, List.nil_append, List.lookup_cons, py_beq]
  refine ⟨?_, ?_, ?_, close_tenth hdoubles hlower, close_tenth hdoubles hupper, ?_⟩
  · exact isStep_page hdoubles (fun n hn => find_step hsteps hn)
  · exact isStep_page hdoubles (fun n hn => find_step hsteps hn)
  · exact isStep_page hdoubles (fun n hn => find_step hsteps hn)
  · simp [isString, anyBreach]

/-- **The browser accepts the payload of a forecast.** -/
theorem payload_page (hdoubles : Doubles ar) {requested : WorkbenchRequest}
    {result : GovernedForecast} {risk : RiskReport} {revision : PyStr}
    (h : Emitted ar requested.body ⟨requested.rule.threshold.sent, requested.rule.direction,
      requested.rule.alertLevel.sent⟩ result risk) (hrevision : isRevision revision = true) :
    payloadAccepted ar (page ar (inspectionPayload requested.body.modelDump
      (forecastResponse ar result risk) revision)) requested = true := by
  obtain ⟨raw, hraw, hlength⟩ := h.points
  have hhorizon : raw.length = requested.horizon := hlength
  obtain ⟨hpoints, rows, hsteps, hrows, hcount, htenth⟩ :=
    expectedRows_page hdoubles h.threshold hraw (by have := requested.horizon_le; omega)
  have hnumber := isNumber_small hdoubles requested.horizon_le
  have hrule := rule_page h rfl (sent_eq requested.alert_finite).1
  have hread := @readRule_page ar requested.body _ rfl
  have hcontracts := contracts_page h rfl hnumber
  have hdigests := digests_page hdoubles h
  obtain ⟨rows', receipt, digest, hsteps', hreport⟩ := h.report
  have heq : rows' = rows.map ExpectedRow.risk := by
    have hboth := hsteps'.symm.trans hsteps
    cases hboth
    rfl
  have hwindow := @window_page ar hdoubles result ⟨requested.rule.threshold.sent,
    requested.rule.direction, requested.rule.alertLevel.sent⟩ _ (ar.sha256 receipt) (ar.sha256 digest)
    htenth
  rw [← heq, ← hreport] at hwindow
  have hpayload := get_page ar (payload_nodup requested.body.modelDump
    (forecastResponse ar result risk) revision _ rfl)
  have hinput : JsValue.get (py "request") (some (page ar (inspectionPayload requested.body.modelDump
      (forecastResponse ar result risk) revision)))
      = some (page ar (.dict requested.body.modelDump)) := by
    unfold inspectionPayload
    rw [hpayload]
    simp [List.lookup_cons, py_beq]
  have hforecast : JsValue.get (py "forecast") (some (page ar (inspectionPayload
      requested.body.modelDump (forecastResponse ar result risk) revision)))
      = some (page ar (.dict (forecastResponse ar result risk))) := by
    unfold inspectionPayload
    rw [hpayload]
    simp [List.lookup_cons, py_beq]
  have hresponse := get_page ar (@forecastResponse_nodup ar result risk)
  have hrisk : JsValue.get (py "risk_window") (some (page ar (.dict (forecastResponse ar result risk))))
      = some (page ar (.dict (risk.asdict ar))) := by
    rw [hresponse]
    simp [forecastResponse, List.lookup_cons, py_beq]
  have hreceipt : JsValue.get (py "receipt") (some (page ar (.dict (forecastResponse ar result risk))))
      = some (page ar (.dict result.receipt.response)) := by
    rw [hresponse]
    simp [forecastResponse, List.lookup_cons, py_beq]
  have hitems : elements (JsValue.get (py "points")
      (some (page ar (.dict (forecastResponse ar result risk)))))
      = some (result.points.map (fun p => page ar p.asdict)) := by
    rw [hresponse]
    simp [forecastResponse, page_list, elements]
  have hobserved : elements (JsValue.get (py "steps") (some (page ar (.dict (risk.asdict ar)))))
      = some (rows.map (fun row => page ar (row.risk.asdict ar))) := by
    rw [get_page ar (asdict_nodup risk), hreport]
    simp [RiskReport.asdict, RiskReport.body, riskReport, List.lookup_cons, py_beq, page_list,
      elements, heq]
  have hasked : JsValue.get (py "horizon") (some (page ar (.dict requested.body.modelDump)))
      = some (.number (ar.ofInt requested.horizon)) := by
    rw [get_page ar (modelDump_nodup requested.body)]
    simp [ForecastBody.modelDump, WorkbenchRequest.body, List.lookup_cons, py_beq]
  unfold payloadAccepted
  simp only [hinput, hforecast, hrisk, hreceipt, hitems, hobserved, hread, hasked,
    authority_page _ _ hrevision, request_page hdoubles requested, hcontracts, hrule, hrows, hwindow,
    hdigests, List.length_map, hpoints, hcount, hhorizon, hnumber, Bool.and_self]

end Fields

/-! ## §6. Agreement. -/

theorem textEncode_eq {text : PyStr} (h : text.any isSurrogate = false) :
    textEncode text = text.flatMap utf8Bytes := by
  unfold textEncode
  have hsame : text.map (fun c => if isSurrogate c then 0xFFFD else c) = text := by
    rw [List.any_eq_false] at h
    calc text.map (fun c => if isSurrogate c then 0xFFFD else c) = text.map id := by
          apply List.map_congr_left
          intro c hc
          rw [if_neg (h c hc)]
          rfl
      _ = text := List.map_id text
  rw [hsame]

theorem envelopeText_js {ar : Arithmetic} (hdoubles : Doubles ar) {envelope : InspectionEnvelope}
    (hdigest : sha256Text ar.toRuntime envelope.canonicalJson = .ok envelope.sha256)
    (hschema : envelope.schema = py "szl.lyte.forecast-inspection-envelope/v1")
    (hsemantics : envelope.hashSemantics = py "CONTENT_INTEGRITY_NOT_SIGNATURE_OR_ACCURACY")
    (hsize : utf16Length envelope.canonicalJson ≤ 1000000) :
    envelopeText ar.toRuntime (some envelope.js) = some envelope.canonicalJson := by
  obtain ⟨hsurrogate, hsha⟩ := sha256Text_eq hdigest
  have hhex := hex_page hdoubles (envelope.canonicalJson.flatMap utf8Bytes)
  unfold envelopeText InspectionEnvelope.js JsValue.get
  simp [List.lookup_cons, py_beq, isString, hschema, hsemantics, hsize, hsha,
    textEncode_eq hsurrogate, hhex]

/-- The payload that the route binds for a request. -/
def Inspected (ar : Arithmetic) (body : ForecastBody) (revision : Option PyStr) (v : Json) : Prop :=
  ∃ rule observed result risk, body.risk = some rule ∧ revision = some observed ∧
    forecast ar body rule = .ok (result, risk) ∧
    v = inspectionPayload body.modelDump (forecastResponse ar result risk) observed

/-- **The browser verifier and the risk engine agree.**  What the route emits for a request of the
workbench is accepted, if `JSON.parse` preserves doubles and the text is not too long; and what is
accepted for a request, whoever made it, carries what `derive_risk_window` computes from the
points and the rule that it names. -/
theorem verifier_agrees (ar : Arithmetic) (hdoubles : Doubles ar) (parse : PyStr → Option JsValue)
    (requested : WorkbenchRequest) :
    (∀ revision revisionAfter envelope,
      inspectForecast ar requested.body revision revisionAfter = .ok envelope →
      utf16Length envelope.canonicalJson ≤ 1000000 →
      (∀ v, Inspected ar requested.body revision v → Parses ar parse v) →
      ∃ v, Inspected ar requested.body revision v ∧
        decodeInspection ar parse (some envelope.js) requested = some (page ar v)) ∧
    (∀ envelope payload, decodeInspection ar parse envelope requested = some payload →
      ∃ rule items points rows,
        readRule (JsValue.get (py "request") (some payload)) = some rule ∧
        rule.threshold.eq requested.rule.threshold = true ∧
        rule.direction = requested.rule.direction ∧
        rule.alertLevel.eq requested.rule.alertLevel = true ∧
        elements (JsValue.get (py "points") (JsValue.get (py "forecast") (some payload)))
          = some items ∧
        carriedPoints 1 items = some points ∧
        riskSteps ar workbenchQuantiles rule 1 points = .ok rows ∧
        (∀ forecast receiptSha256,
          Carries (JsValue.get (py "risk_window") (JsValue.get (py "forecast") (some payload)))
            (riskReport ar forecast rule rows receiptSha256)) ∧
        ∀ forecast report, forecast.points = points →
          forecast.receipt.quantiles = workbenchQuantiles →
          deriveRiskWindow ar forecast rule = .ok report →
          report.steps = rows ∧
            Carries (JsValue.get (py "risk_window") (JsValue.get (py "forecast") (some payload)))
              report) := by
  constructor
  · intro revision revisionAfter envelope h hsize hparse
    obtain ⟨result, risk, observed, hobserved, hforecast, henvelope⟩ := inspectForecast_ok h
    obtain ⟨hrevision, hcanonical, hdigest, hschema, hsemantics⟩ := inspectionEnvelope_ok henvelope
    have haccepted := payload_page hdoubles (forecast_emitted hforecast) hrevision
    have hinspected : Inspected ar requested.body revision (inspectionPayload
        requested.body.modelDump (forecastResponse ar result risk) observed) :=
      ⟨_, observed, result, risk, rfl, hobserved, hforecast, rfl⟩
    refine ⟨_, hinspected, ?_⟩
    unfold decodeInspection
    rw [envelopeText_js hdoubles hdigest hschema hsemantics hsize]
    simp only [Option.bind_eq_bind, Option.bind_some, hparse _ hinspected _ hcanonical]
    rw [if_pos haccepted]
  · intro envelope payload h
    exact decodeInspection_carries hdoubles.toDecimalLevels h

theorem binary64_doubles : Doubles .binary64 where
  q10 := by decide +kernel
  q50 := by decide +kernel
  q90 := by decide +kernel
  tenths := by decide +kernel
  small := by decide +kernel
  digest := polynomialDigest_hex

def sampleWorkbench : WorkbenchRequest where
  signalId := py "latency"
  values := [some .half, none, some .half]
  horizon := 1
  rule := ⟨.one, .below, .half⟩
  finite := by decide
  horizon_pos := by decide
  horizon_le := by decide
  threshold_finite := by decide
  alert_finite := by decide
  alert_pos := by decide +kernel
  alert_le := by decide +kernel

def sampleObserved : PyStr := List.replicate 40 97

/-- `JSON.parse` on the text of the sample. -/
def sampleParse (text : PyStr) : Option JsValue := do
  let rule ← sampleWorkbench.body.risk
  let (result, risk) ← (forecast .binary64 sampleWorkbench.body rule).toOption
  let v := inspectionPayload sampleWorkbench.body.modelDump
    (forecastResponse .binary64 result risk) sampleObserved
  if (canonicalJson Arithmetic.binary64.toRuntime v).toOption = some text then
    some (page .binary64 v)
  else none

theorem sampleParse_parses : ∀ v, Inspected .binary64 sampleWorkbench.body (some sampleObserved) v →
    Parses .binary64 sampleParse v := by
  intro v hv text htext
  obtain ⟨rule, observed, result, risk, hrule, hobserved, hforecast, rfl⟩ := hv
  cases hobserved
  unfold sampleParse
  rw [hrule]
  simp only [Option.bind_eq_bind, Option.bind_some, hforecast, htext, Except.toOption, if_true]

theorem verifier_agrees_sample : ∃ envelope v report,
    inspectForecast .binary64 sampleWorkbench.body (some sampleObserved) (some sampleObserved)
      = .ok envelope ∧
    decodeInspection .binary64 sampleParse (some envelope.js) sampleWorkbench
      = some (page .binary64 v) ∧
    Carries (JsValue.get (py "risk_window")
      (JsValue.get (py "forecast") (some (page .binary64 v)))) report := by
  have hrun : (inspectForecast .binary64 sampleWorkbench.body (some sampleObserved)
      (some sampleObserved)).toOption.any (fun e => decide (utf16Length e.canonicalJson ≤ 1000000))
      = true := by decide +kernel
  cases henvelope : inspectForecast .binary64 sampleWorkbench.body (some sampleObserved)
      (some sampleObserved) with
  | error e =>
    rw [henvelope] at hrun
    cases hrun
  | ok envelope =>
    rw [henvelope] at hrun
    obtain ⟨v, hv, hdecoded⟩ := (verifier_agrees .binary64 binary64_doubles sampleParse
      sampleWorkbench).1 _ _ envelope henvelope (of_decide_eq_true hrun) sampleParse_parses
    obtain ⟨rule, items, points, rows, _, _, _, _, _, _, _, hcarries, _⟩ :=
      (verifier_agrees .binary64 binary64_doubles sampleParse sampleWorkbench).2 _ _ hdecoded
    obtain ⟨_, _, result, risk, _, _, hforecast, rfl⟩ := hv
    exact ⟨envelope, _, riskReport .binary64 result rule rows [], rfl, hdecoded,
      hcarries result []⟩

end Lyte
