import Lyte.Connectors.Attributes
import Lyte.Intelligence.ForecastLoom
import Lyte.Lib.Search

/-
  Lyte.Connectors.OtlpHttp — telemetry exports, in the bounded JSON subset.

  An export holds resources, a resource scopes, and a scope spans, metrics or
  log records; `parseGroups` is the walk that the three signals share, and
  `parseSpan`, `parseMetric` and `parseLogRecord` read what lies at its end.
  The walk fills the two buffers of the ingestor: the records, up to a limit,
  and the paths of the attributes that were removed.

  What a span or a point is checked for is a field of its structure, so that a
  span cannot end before it starts and the buckets of a histogram add up.
-/

namespace Lyte

open Transact Search

/-! ## §1. Limits and records. -/

/-- What an ingestor takes from the interpreter. -/
structure OtlpRuntime extends Interpreter where
  /-- `float(n)` of an int that is not too large. -/
  floatOfInt : Int → PyFloat

/-- `OtlpLimits`, as its `__post_init__` admits it. -/
structure OtlpLimits where
  maxBodyBytes : Nat
  maxResources : Nat
  maxScopesPerResource : Nat
  maxRecords : Nat
  maxAttributesPerSet : Nat
  maxBuckets : Nat
  maxTextLength : Nat
  body_range : 1 ≤ maxBodyBytes ∧ maxBodyBytes ≤ 10000000
  resources_range : 1 ≤ maxResources ∧ maxResources ≤ 128
  scopes_range : 1 ≤ maxScopesPerResource ∧ maxScopesPerResource ≤ 256
  records_range : 1 ≤ maxRecords ∧ maxRecords ≤ 50000
  attributes_range : 1 ≤ maxAttributesPerSet ∧ maxAttributesPerSet ≤ 256
  buckets_range : 1 ≤ maxBuckets ∧ maxBuckets ≤ 2048
  text_range : 1 ≤ maxTextLength ∧ maxTextLength ≤ 65536

/-- `OtlpLimits()`. -/
def OtlpLimits.default : OtlpLimits :=
  ⟨1000000, 16, 32, 5000, 64, 256, 4096, by decide, by decide, by decide, by decide, by decide,
    by decide, by decide⟩

/-- The three signals, with the names of their containers. -/
inductive OtlpSignal where
  | traces | metrics | logs
deriving DecidableEq

namespace OtlpSignal

def value : OtlpSignal → PyStr
  | traces => py "traces"
  | metrics => py "metrics"
  | logs => py "logs"

def resources : OtlpSignal → PyStr
  | traces => py "resourceSpans"
  | metrics => py "resourceMetrics"
  | logs => py "resourceLogs"

def scopes : OtlpSignal → PyStr
  | traces => py "scopeSpans"
  | metrics => py "scopeMetrics"
  | logs => py "scopeLogs"

def items : OtlpSignal → PyStr
  | traces => py "spans"
  | metrics => py "metrics"
  | logs => py "logRecords"

end OtlpSignal

/-- `OtlpRecord`; its time is read as an unsigned number. -/
structure OtlpRecord where
  signal : OtlpSignal
  name : PyStr
  timeUnixNano : Nat
  resourceAttributes : JsonDict
  scope : JsonDict
  attributes : JsonDict
  data : JsonDict

def JsonValue.str (s : PyStr) : JsonValue := ⟨.str s, rfl⟩
def JsonValue.int (n : Int) : JsonValue := ⟨.int n, rfl⟩
def JsonValue.float (f : PyFloat) : JsonValue := ⟨.float f, rfl⟩
def JsonValue.bool (b : Bool) : JsonValue := ⟨.bool b, rfl⟩
def JsonValue.null : JsonValue := ⟨.null, rfl⟩

/-- A list of values. -/
def JsonValue.list (items : List JsonValue) : JsonValue :=
  ⟨.list (items.map Subtype.val), by
    rw [Json.nodupKeys, nodupKeysItems_eq, List.all_eq_true]
    intro v hv
    obtain ⟨w, _, rfl⟩ := List.mem_map.mp hv
    exact w.property⟩

/-- `OtlpRecord.to_dict`; the truth label is the default. -/
def OtlpRecord.toDict (r : OtlpRecord) : JsonDict :=
  .ofPresent [
    (py "signal", some (.str r.signal.value)),
    (py "name", some (.str r.name)),
    (py "time_unix_nano", some (.int r.timeUnixNano)),
    (py "resource_attributes", some r.resourceAttributes.value),
    (py "scope", some r.scope.value),
    (py "attributes", some r.attributes.value),
    (py "data", some r.data.value),
    (py "truth_label", some (.str TruthLabel.reported.value))] (by
      simp only [List.map_cons, List.map_nil]
      decide +kernel)

/-- What `_parse_span` reads besides the name and the attributes. -/
structure OtlpSpan where
  traceId : PyStr
  spanId : PyStr
  parentSpanId : Option PyStr
  startTime : Nat
  endTime : Nat
  statusCode : PyStr
  statusMessage : Option PyStr
  kind : PyStr
  traceState : Option PyStr
  ordered : startTime ≤ endTime

def OtlpSpan.status (s : OtlpSpan) : JsonDict :=
  .ofPresent [
    (py "code", some (.str s.statusCode)),
    (py "message", s.statusMessage.map .str)] (by
      simp only [List.map_cons, List.map_nil]
      decide +kernel)

/-- The `data` of a span. -/
def OtlpSpan.data (s : OtlpSpan) : JsonDict :=
  .ofPresent [
    (py "trace_id", some (.str s.traceId)),
    (py "span_id", some (.str s.spanId)),
    (py "parent_span_id", some ((s.parentSpanId.map .str).getD .null)),
    (py "start_time_unix_nano", some (.int s.startTime)),
    (py "end_time_unix_nano", some (.int s.endTime)),
    (py "duration_nano", some (.int ((s.endTime - s.startTime : Nat) : Int))),
    (py "kind", some (.str s.kind)),
    (py "status", some s.status.value),
    (py "trace_state", s.traceState.map .str)] (by
      simp only [List.map_cons, List.map_nil]
      decide +kernel)

inductive MetricKind where
  | gauge | sum | histogram
deriving DecidableEq

def MetricKind.value : MetricKind → PyStr
  | gauge => py "gauge"
  | sum => py "sum"
  | histogram => py "histogram"

/-- What the points of a metric share. -/
structure OtlpMetric where
  name : PyStr
  kind : MetricKind
  description : Option PyStr
  unit : Option PyStr
  temporality : Option PyStr
  isMonotonic : Option Bool
  points : List Json

/-- A number as a point gives it: `asDouble` or `asInt`. -/
inductive OtlpNumber where
  | asDouble (f : PyFloat)
  | asInt (n : Int)

def OtlpNumber.value : OtlpNumber → JsonValue
  | asDouble f => .float f
  | asInt n => .int n

def OtlpNumber.encoding : OtlpNumber → PyStr
  | asDouble _ => py "asDouble"
  | asInt _ => py "asInt"

/-- Any of `zip(bounds, bounds[1:])` does not rise. -/
def hasFlatStep (bounds : List PyFloat) : Bool :=
  (bounds.zip bounds.tail).any (fun p => p.2.le p.1)

/-- The buckets of a histogram. -/
structure OtlpBuckets where
  counts : List Nat
  bounds : List PyFloat
  count : Nat
  lengths : counts.length = bounds.length + 1
  increasing : hasFlatStep bounds = false
  total : counts.sum = count

/-- `min` and `max` are in order, where both are given. -/
def OrderedRange (least greatest : Option PyFloat) : Prop :=
  ∀ a b, least = some a → greatest = some b → b.lt a = false

inductive OtlpPointValue where
  | number (n : OtlpNumber)
  | histogram (buckets : OtlpBuckets) (sum least greatest : Option PyFloat)
      (ordered : OrderedRange least greatest)

/-- A data point. -/
structure OtlpPoint where
  attributes : Stripped
  timeUnixNano : Nat
  value : OtlpPointValue
  startTime : Option Nat
  flags : Option Int
  ordered : ∀ s, startTime = some s → s ≤ timeUnixNano

/-- The fields of a normalized point that stay in `data`. -/
def OtlpPoint.fields (p : OtlpPoint) : List (PyStr × Option JsonValue) :=
  match p.value with
  | .number n => [
      (py "value", some n.value),
      (py "value_encoding", some (.str n.encoding)),
      (py "start_time_unix_nano", p.startTime.map (fun s : Nat => .int s)),
      (py "flags", p.flags.map .int)]
  | .histogram buckets sum least greatest _ => [
      (py "count", some (.int buckets.count)),
      (py "bucket_counts", some (.list (buckets.counts.map (fun n : Nat => .int n)))),
      (py "explicit_bounds", some (.list (buckets.bounds.map .float))),
      (py "start_time_unix_nano", p.startTime.map (fun s : Nat => .int s)),
      (py "sum", sum.map .float),
      (py "min", least.map .float),
      (py "max", greatest.map .float),
      (py "flags", p.flags.map .int)]

/-- `{"metric_type": kind, **kind_metadata}`. -/
def OtlpMetric.fields (m : OtlpMetric) : List (PyStr × Option JsonValue) := [
  (py "metric_type", some (.str m.kind.value)),
  (py "description", m.description.map .str),
  (py "unit", m.unit.map .str),
  (py "aggregation_temporality", m.temporality.map .str),
  (py "is_monotonic", m.isMonotonic.map .bool)]

/-- The names of the fields of a point. -/
def OtlpPoint.fieldNames (p : OtlpPoint) : List PyStr := p.fields.map Prod.fst

theorem OtlpPoint.fieldNames_cases (p : OtlpPoint) :
    p.fieldNames = [py "value", py "value_encoding", py "start_time_unix_nano", py "flags"] ∨
    p.fieldNames = [py "count", py "bucket_counts", py "explicit_bounds",
      py "start_time_unix_nano", py "sum", py "min", py "max", py "flags"] := by
  unfold fieldNames fields
  cases p.value with
  | number n => exact .inl rfl
  | histogram buckets sum least greatest ordered => exact .inr rfl

/-- The names of the fields of a metric. -/
def metricFieldNames : List PyStr := [py "metric_type", py "description", py "unit",
  py "aggregation_temporality", py "is_monotonic"]

/-- The `data` of a data point. -/
def OtlpMetric.data (m : OtlpMetric) (p : OtlpPoint) : JsonDict :=
  .ofPresent (m.fields ++ p.fields) (by
    rw [List.map_append]
    show (metricFieldNames ++ p.fieldNames).Nodup
    rcases p.fieldNames_cases with h | h
    · rw [h]
      decide +kernel
    · rw [h]
      decide +kernel)

/-- A scalar `AnyValue`. -/
inductive OtlpScalar where
  | stringValue (s : PyStr)
  | boolValue (b : Bool)
  | intValue (n : Int)
  | doubleValue (f : PyFloat)

def OtlpScalar.value : OtlpScalar → JsonValue
  | stringValue s => .str s
  | boolValue b => .bool b
  | intValue n => .int n
  | doubleValue f => .float f

structure OtlpLogRecord where
  body : OtlpScalar
  observedTime : Option Nat
  severityNumber : Option Int
  severityText : Option PyStr
  flags : Option Int
  traceId : Option PyStr
  spanId : Option PyStr

/-- The `data` of a log record. -/
def OtlpLogRecord.data (r : OtlpLogRecord) : JsonDict :=
  .ofPresent [
    (py "body", some r.body.value),
    (py "observed_time_unix_nano", r.observedTime.map (fun n : Nat => .int n)),
    (py "severity_number", r.severityNumber.map .int),
    (py "severity_text", r.severityText.map .str),
    (py "flags", r.flags.map .int),
    (py "trace_id", r.traceId.map .str),
    (py "span_id", r.spanId.map .str)] (by
      simp only [List.map_cons, List.map_nil]
      decide +kernel)

/-- `str(data.get("severity_text") or "log")`. -/
def OtlpLogRecord.name (r : OtlpLogRecord) : PyStr :=
  match r.severityText with
  | some text => if text.isEmpty then py "log" else text
  | none => py "log"

/-! ## §2. Fields. -/

/-- A refusal that names its field. -/
def refused (path : PyStr) (message : String) : Exn := .payloadValidationError (path ++ py message)

/-- `if name in fields: parse(fields[name])`. -/
def ifPresent {α : Type} (fields : List (PyStr × Json)) (name : PyStr)
    (parse : Json → Except Exn α) : Except Exn (Option α) :=
  match Json.lookup fields name with
  | none => .ok none
  | some value => do
      let a ← parse value
      return some a

/-- `f"{path}.{name}"`. -/
def dotted (path : PyStr) (name : PyStr) : PyStr := path ++ py "." ++ name

/-- `f"{path}[{index}]"`. -/
def indexed (path : PyStr) (index : Nat) : PyStr := path ++ py "[" ++ decimal index ++ py "]"

/-- `_UNSIGNED_INTEGER`: `^(?:0|[1-9][0-9]{0,39})$`. -/
def isUnsignedInteger (s : PyStr) : Bool :=
  match s with
  | [] => false
  | c :: cs => (c == 48 && cs.isEmpty) || (49 ≤ c && c ≤ 57 && cs.all isDigit && cs.length ≤ 39)

/-- `_SIGNED_INTEGER`, and `int` of what it matches. -/
def signedInteger? (s : PyStr) : Option Int :=
  match s with
  | 45 :: cs => if isUnsignedInteger cs then some (-(natOfDigits cs : Int)) else none
  | _ => if isUnsignedInteger s then some (natOfDigits s) else none

def isHexChar (c : Nat) : Bool := isDigit c || (65 ≤ c && c ≤ 70) || (97 ≤ c && c ≤ 102)

/-- `_SPAN_KINDS`. -/
def spanKinds : List (Int × PyStr) := [
  (0, py "SPAN_KIND_UNSPECIFIED"),
  (1, py "SPAN_KIND_INTERNAL"),
  (2, py "SPAN_KIND_SERVER"),
  (3, py "SPAN_KIND_CLIENT"),
  (4, py "SPAN_KIND_PRODUCER"),
  (5, py "SPAN_KIND_CONSUMER")]

/-- `_STATUS_CODES`. -/
def statusCodes : List (Int × PyStr) := [
  (0, py "STATUS_CODE_UNSET"),
  (1, py "STATUS_CODE_OK"),
  (2, py "STATUS_CODE_ERROR")]

/-- `_TEMPORALITIES`. -/
def temporalities : List (Int × PyStr) := [
  (1, py "AGGREGATION_TEMPORALITY_DELTA"),
  (2, py "AGGREGATION_TEMPORALITY_CUMULATIVE")]

namespace OtlpJsonIngestor

/-- `_unsigned`. -/
def unsigned (value : Json) (path : PyStr) : Except Exn Nat :=
  match value with
  | .str s =>
      if !isUnsignedInteger s then .error (refused path " must be an unsigned decimal string")
      else if 2 ^ 64 - 1 < natOfDigits s then .error (refused path " exceeds uint64")
      else .ok (natOfDigits s)
  | _ => .error (refused path " must be an unsigned decimal string")

/-- `_signed`. -/
def signed (value : Json) (path : PyStr) : Except Exn Int :=
  match value with
  | .str s =>
      match signedInteger? s with
      | none => .error (refused path " must be a signed decimal string")
      | some n =>
          if -(2 ^ 63) ≤ n ∧ n ≤ 2 ^ 63 - 1 then .ok n
          else .error (refused path " exceeds int64")
  | _ => .error (refused path " must be a signed decimal string")

/-- `_hex`, for an identifier of `digits` digits. -/
def hex (digits : Nat) (value : Json) (path : PyStr) : Except Exn PyStr :=
  match value with
  | .str s =>
      if s.length == digits && s.all isHexChar && s.any (· != 48) then .ok (s.map asciiLower)
      else .error (refused path " has an invalid hexadecimal identifier")
  | _ => .error (refused path " has an invalid hexadecimal identifier")

/-- `_enum`. -/
def enum (choices : List (Int × PyStr)) (absent : Int) (value : Json) (path : PyStr) :
    Except Exn PyStr :=
  let unsupported := refused path " has an unsupported enum value"
  match value with
  | .null => .ok ((choices.lookup absent).getD [])
  | .int n =>
      match choices.lookup n with
      | some name => .ok name
      | none => .error unsupported
  | .str s => if (choices.map Prod.snd).contains s then .ok s else .error unsupported
  | _ => .error unsupported

/-- `flags` of a point or a log record. -/
def flags (value : Json) (path : PyStr) : Except Exn Int :=
  match value with
  | .int n => .ok n
  | _ => .error (refused path " must be an integer")

/-- `severityNumber` of a log record. -/
def severity (value : Json) (path : PyStr) : Except Exn Int :=
  match value with
  | .int n =>
      if 0 ≤ n ∧ n ≤ 24 then .ok n
      else .error (refused path " must be an integer from 0 to 24")
  | _ => .error (refused path " must be an integer from 0 to 24")

/-- `isMonotonic` of a sum. -/
def monotonic (value : Json) (path : PyStr) : Except Exn Bool :=
  match value with
  | .bool b => .ok b
  | _ => .error (refused path " must be a boolean")

section Ingest

variable (rt : OtlpRuntime) (limits : OtlpLimits)

/-- `_text`. -/
def text (required : Bool) (value : Json) (path : PyStr) : Except Exn PyStr :=
  match value with
  | .str s =>
      if required && s.isEmpty then .error (refused path " cannot be empty")
      else if limits.maxTextLength < s.length then
        .error (.payloadValidationError
          (path ++ py " exceeds " ++ decimal limits.maxTextLength ++ py " characters"))
      else .ok s
  | _ => .error (refused path " must be a string")

/-- The least magnitude that rounds to 2^1024. -/
def floatBound : Nat := 2 ^ 1024 - 2 ^ 970

/-- `_number`: `float(value)` raises OverflowError on an int from `floatBound` on. -/
def number (value : Json) (path : PyStr) : Except Exn PyFloat :=
  let finite (parsed : PyFloat) : Except Exn PyFloat :=
    if parsed.isFinite then .ok parsed else .error (refused path " must be finite")
  match value with
  | .int n =>
      if floatBound ≤ n.natAbs then .error .overflowError else finite (rt.floatOfInt n)
  | .float f => finite f
  | _ => .error (refused path " must be a JSON number")

/-- The fields of a scalar. -/
def scalarFields : List PyStr :=
  [py "stringValue", py "boolValue", py "intValue", py "doubleValue"]

/-- `_any_value`. -/
def anyValue (value : Json) (path : PyStr) : Except Exn OtlpScalar := do
  let item ← requireObject value path
  requireFields item path scalarFields []
  match scalarFields.filter (fun name => (Json.lookup item name).isSome) with
  | [field] =>
      let raw := Json.get item field
      if field = py "stringValue" then
        let s ← text limits false raw (dotted path field)
        return .stringValue s
      else if field = py "boolValue" then
        match raw with
        | .bool b => return .boolValue b
        | _ => throw (refused (dotted path field) " must be a boolean")
      else if field = py "intValue" then
        let n ← signed raw (dotted path field)
        return .intValue n
      else
        let f ← number rt raw (dotted path field)
        return .doubleValue f
  | _ => throw (refused path " must contain exactly one supported scalar value")

/-- The loop of `_attributes`: the attributes from an index on, behind those
that are parsed. -/
def attributeItems (path : PyStr) : Nat → List Json → JsonDict → Except Exn JsonDict
  | _, [], parsed => .ok parsed
  | index, rawItem :: rest, parsed => do
      let itemPath := indexed path index
      let item ← requireObject rawItem itemPath
      requireFields item itemPath [py "key", py "value"] [py "key", py "value"]
      let key ← text limits true (Json.get item (py "key")) (dotted itemPath (py "key"))
      if h : parsed.keys.contains key = true then
        throw (.payloadValidationError
          (path ++ py " contains duplicate attribute key " ++ rt.strRepr key))
      else
        let value ← anyValue rt limits (Json.get item (py "value")) (dotted itemPath (py "value"))
        attributeItems path (index + 1) rest (parsed.add key value.value (by simpa using h))

/-- `_attributes`. -/
def attributes (value : Json) (path : PyStr) : Except Exn Stripped :=
  match value with
  | .null => .ok ⟨.empty, []⟩
  | _ => do
      let rawItems ← requireList value path limits.maxAttributesPerSet
      let parsed ← attributeItems rt limits path 0 rawItems .empty
      return stripSensitiveAttributes rt.toRuntime parsed

/-- `_resource`. -/
def resource (value : Json) (path : PyStr) : Except Exn Stripped :=
  match value with
  | .null => .ok ⟨.empty, []⟩
  | _ => do
      let resource ← requireObject value path
      requireFields resource path [py "attributes"] []
      attributes rt limits (Json.get resource (py "attributes")) (dotted path (py "attributes"))

/-- The fields of a scope, those that are there. -/
def scopeDict (name version : Option PyStr) (attributes : JsonDict) : JsonDict :=
  .ofPresent [
    (py "name", name.map .str),
    (py "version", version.map .str),
    (py "attributes", if attributes.fields.isEmpty then none else some attributes.value)] (by
      simp only [List.map_cons, List.map_nil]
      decide +kernel)

/-- `_scope`. -/
def scope (value : Json) (path : PyStr) : Except Exn Stripped :=
  match value with
  | .null => .ok ⟨.empty, []⟩
  | _ => do
      let scope ← requireObject value path
      requireFields scope path [py "name", py "version", py "attributes"] []
      let name ← ifPresent scope (py "name")
        (fun v => text limits true v (dotted path (py "name")))
      let version ← ifPresent scope (py "version")
        (fun v => text limits true v (dotted path (py "version")))
      let attrs ← attributes rt limits (Json.get scope (py "attributes"))
        (dotted path (py "attributes"))
      return ⟨scopeDict name version attrs.clean, attrs.stripped⟩

/-! ## §3. Spans. -/

def spanFields : List PyStr := [py "traceId", py "spanId", py "parentSpanId", py "traceState",
  py "name", py "kind", py "startTimeUnixNano", py "endTimeUnixNano", py "attributes", py "status"]

def requiredSpanFields : List PyStr :=
  [py "traceId", py "spanId", py "name", py "startTimeUnixNano", py "endTimeUnixNano"]

/-- `parentSpanId` of a span; an empty one counts as none. -/
def parentSpan (span : List (PyStr × Json)) (path : PyStr) : Except Exn (Option PyStr) :=
  match Json.lookup span (py "parentSpanId") with
  | none => .ok none
  | some (.str []) => .ok none
  | some value => do
      let parentId ← hex 16 value path
      return some parentId

/-- `_parse_span`, up to the record it appends; the second part are the paths
of the attributes that were removed. -/
def parseSpan (value : Json) (path : PyStr) (resource scope : JsonDict) :
    Except Exn (OtlpRecord × List PyStr) := do
  let span ← requireObject value path
  requireFields span path spanFields requiredSpanFields
  let traceId ← hex 32 (Json.get span (py "traceId")) (dotted path (py "traceId"))
  let spanId ← hex 16 (Json.get span (py "spanId")) (dotted path (py "spanId"))
  let parentId ← parentSpan span (dotted path (py "parentSpanId"))
  let startTime ← unsigned (Json.get span (py "startTimeUnixNano"))
    (dotted path (py "startTimeUnixNano"))
  let endTime ← unsigned (Json.get span (py "endTimeUnixNano"))
    (dotted path (py "endTimeUnixNano"))
  if h : endTime < startTime then
    throw (refused (dotted path (py "endTimeUnixNano")) " precedes startTimeUnixNano")
  else
    let statusPath := dotted path (py "status")
    let status ← requireObject ((Json.lookup span (py "status")).getD (.dict [])) statusPath
    requireFields status statusPath [py "code", py "message"] []
    let code ← enum statusCodes 0 (Json.get status (py "code")) (dotted statusPath (py "code"))
    let message ← ifPresent status (py "message")
      (fun v => text limits false v (dotted statusPath (py "message")))
    let kind ← enum spanKinds 0 (Json.get span (py "kind")) (dotted path (py "kind"))
    let traceState ← ifPresent span (py "traceState")
      (fun v => text limits false v (dotted path (py "traceState")))
    let name ← text limits true (Json.get span (py "name")) (dotted path (py "name"))
    let attrs ← attributes rt limits (Json.get span (py "attributes"))
      (dotted path (py "attributes"))
    let data : OtlpSpan := {
      traceId := traceId
      spanId := spanId
      parentSpanId := parentId
      startTime := startTime
      endTime := endTime
      statusCode := code
      statusMessage := message
      kind := kind
      traceState := traceState
      ordered := Nat.le_of_not_lt h }
    return ({
      signal := .traces
      name := name
      timeUnixNano := endTime
      resourceAttributes := resource
      scope := scope
      attributes := attrs.clean
      data := data.data }, attrs.stripped)

/-! ## §4. Metrics. -/

/-- `startTimeUnixNano` of a point. -/
def pointStart (point : List (PyStr × Json)) (path : PyStr) (time : Nat) :
    Except Exn { s : Option Nat // ∀ t, s = some t → t ≤ time } :=
  match Json.lookup point (py "startTimeUnixNano") with
  | none => .ok ⟨none, fun _ h => by cases h⟩
  | some value => do
      let startTime ← unsigned value (dotted path (py "startTimeUnixNano"))
      if h : time < startTime then
        throw (refused path ".startTimeUnixNano exceeds timeUnixNano")
      else
        return ⟨some startTime, fun t ht => by
          cases ht
          exact Nat.le_of_not_lt h⟩

/-- The number of a point, in one of its two representations. -/
def pointNumber (point : List (PyStr × Json)) (path : PyStr) : Except Exn OtlpNumber :=
  match Json.lookup point (py "asDouble"), Json.lookup point (py "asInt") with
  | some value, none => do
      let f ← number rt value (dotted path (py "asDouble"))
      return .asDouble f
  | none, some value => do
      let n ← signed value (dotted path (py "asInt"))
      return .asInt n
  | _, _ => .error (refused path " must contain exactly one of asDouble or asInt")

/-- `_number_point`. -/
def numberPoint (value : Json) (path : PyStr) : Except Exn OtlpPoint := do
  let point ← requireObject value path
  requireFields point path [py "attributes", py "startTimeUnixNano", py "timeUnixNano",
    py "asDouble", py "asInt", py "flags"] [py "timeUnixNano"]
  let n ← pointNumber rt point path
  let attrs ← attributes rt limits (Json.get point (py "attributes"))
    (dotted path (py "attributes"))
  let time ← unsigned (Json.get point (py "timeUnixNano")) (dotted path (py "timeUnixNano"))
  let startTime ← pointStart point path time
  let flagged ← ifPresent point (py "flags") (fun v => flags v (dotted path (py "flags")))
  return ⟨attrs, time, .number n, startTime.val, flagged, startTime.property⟩

/-- `[f(raw, f"{path}[{index}]") for index, raw in enumerate(items)]`. -/
def mapIndexed {α : Type} (f : Json → PyStr → Except Exn α) (path : PyStr) :
    Nat → List Json → Except Exn (List α)
  | _, [] => .ok []
  | index, raw :: rest => do
      let a ← f raw (indexed path index)
      let as ← mapIndexed f path (index + 1) rest
      return a :: as

/-- The buckets of `_histogram_point`. -/
def histogramBuckets (point : List (PyStr × Json)) (path : PyStr) : Except Exn OtlpBuckets := do
  let countsPath := dotted path (py "bucketCounts")
  let boundsPath := dotted path (py "explicitBounds")
  let countsRaw ← requireList (Json.get point (py "bucketCounts")) countsPath limits.maxBuckets
  let boundsRaw ← requireList (Json.get point (py "explicitBounds")) boundsPath limits.maxBuckets
  let counts ← mapIndexed unsigned countsPath 0 countsRaw
  let bounds ← mapIndexed (number rt) boundsPath 0 boundsRaw
  if hl : counts.length = bounds.length + 1 then
    if hi : hasFlatStep bounds = false then
      let count ← unsigned (Json.get point (py "count")) (dotted path (py "count"))
      if ht : counts.sum = count then return ⟨counts, bounds, count, hl, hi, ht⟩
      else throw (refused path ".bucketCounts do not sum to count")
    else throw (refused path ".explicitBounds must be strictly increasing")
  else throw (refused path ".bucketCounts must have one more item than bounds")

/-- `min > max`, where both are given. -/
def rangeReversed (least greatest : Option PyFloat) : Bool :=
  match least, greatest with
  | some a, some b => b.lt a
  | _, _ => false

theorem orderedRange_of_not_reversed {least greatest : Option PyFloat}
    (h : ¬ rangeReversed least greatest = true) : OrderedRange least greatest := by
  intro a b ha hb
  unfold rangeReversed at h
  rw [ha, hb] at h
  exact Bool.eq_false_iff.mpr h

def histogramFields : List PyStr := [py "attributes", py "startTimeUnixNano", py "timeUnixNano",
  py "count", py "sum", py "bucketCounts", py "explicitBounds", py "min", py "max", py "flags"]

/-- `_histogram_point`. -/
def histogramPoint (value : Json) (path : PyStr) : Except Exn OtlpPoint := do
  let point ← requireObject value path
  requireFields point path histogramFields
    [py "timeUnixNano", py "count", py "bucketCounts", py "explicitBounds"]
  let buckets ← histogramBuckets rt limits point path
  let attrs ← attributes rt limits (Json.get point (py "attributes"))
    (dotted path (py "attributes"))
  let time ← unsigned (Json.get point (py "timeUnixNano")) (dotted path (py "timeUnixNano"))
  let startTime ← pointStart point path time
  let total ← ifPresent point (py "sum") (fun v => number rt v (dotted path (py "sum")))
  let least ← ifPresent point (py "min") (fun v => number rt v (dotted path (py "min")))
  let greatest ← ifPresent point (py "max") (fun v => number rt v (dotted path (py "max")))
  if h : rangeReversed least greatest = true then throw (refused path ".min exceeds max")
  else
    let flagged ← ifPresent point (py "flags") (fun v => flags v (dotted path (py "flags")))
    return ⟨attrs, time,
      .histogram buckets total least greatest (orderedRange_of_not_reversed h),
      startTime.val, flagged, startTime.property⟩

/-- A point of a metric of the given kind. -/
def parsePoint (kind : MetricKind) (value : Json) (path : PyStr) : Except Exn OtlpPoint :=
  match kind with
  | .histogram => histogramPoint rt limits value path
  | _ => numberPoint rt limits value path

/-- The kinds that a metric has. -/
def kindsOf (metric : List (PyStr × Json)) : List MetricKind :=
  [MetricKind.gauge, .sum, .histogram].filter
    (fun kind => (Json.lookup metric kind.value).isSome)

/-- The temporality of a metric; a gauge has none. -/
def temporalityOf (kind : MetricKind) (body : List (PyStr × Json)) (path : PyStr) :
    Except Exn (Option PyStr) :=
  match kind with
  | .gauge => .ok none
  | _ => do
      let name ← enum temporalities 1 (Json.get body (py "aggregationTemporality"))
        (dotted path (py "aggregationTemporality"))
      return some name

/-- `isMonotonic`, which only a sum has. -/
def monotonicOf (kind : MetricKind) (body : List (PyStr × Json)) (path : PyStr) :
    Except Exn (Option Bool) :=
  match kind with
  | .sum => do
      let b ← monotonic (Json.get body (py "isMonotonic")) (dotted path (py "sum.isMonotonic"))
      return some b
  | _ => .ok none

/-- `_parse_metric`, up to the loop over its points. -/
def parseMetricHeader (value : Json) (path : PyStr) : Except Exn OtlpMetric := do
  let metric ← requireObject value path
  requireFields metric path
    [py "name", py "description", py "unit", py "gauge", py "sum", py "histogram"] [py "name"]
  match kindsOf metric with
  | [kind] =>
      let name ← text limits true (Json.get metric (py "name")) (dotted path (py "name"))
      let description ← ifPresent metric (py "description")
        (fun v => text limits false v (dotted path (py "description")))
      let unit ← ifPresent metric (py "unit")
        (fun v => text limits false v (dotted path (py "unit")))
      let kindPath := dotted path kind.value
      let body ← requireObject (Json.get metric kind.value) kindPath
      let base := [py "dataPoints"]
      let withTemporality := base ++ [py "aggregationTemporality"]
      let withMonotonic := withTemporality ++ [py "isMonotonic"]
      let fields := match kind with
        | .gauge => base
        | .sum => withMonotonic
        | .histogram => withTemporality
      requireFields body kindPath fields fields
      let temporality ← temporalityOf kind body kindPath
      let isMonotonic ← monotonicOf kind body path
      let points ← requireList (Json.get body (py "dataPoints"))
        (dotted kindPath (py "dataPoints")) limits.maxRecords
      return ⟨name, kind, description, unit, temporality, isMonotonic, points⟩
  | _ => throw (refused path " must contain exactly one supported metric type")

/-- The record of one point, and the paths of the attributes that were removed. -/
def pointRecord (metric : OtlpMetric) (value : Json) (path : PyStr) (resource scope : JsonDict) :
    Except Exn (OtlpRecord × List PyStr) := do
  let point ← parsePoint rt limits metric.kind value path
  return ({
    signal := .metrics
    name := metric.name
    timeUnixNano := point.timeUnixNano
    resourceAttributes := resource
    scope := scope
    attributes := point.attributes.clean
    data := metric.data point }, point.attributes.stripped)

/-! ## §5. Log records. -/

def logFields : List PyStr := [py "timeUnixNano", py "observedTimeUnixNano", py "severityNumber",
  py "severityText", py "body", py "attributes", py "flags", py "traceId", py "spanId"]

/-- `spanId` of a log record. -/
def logSpan (record : List (PyStr × Json)) (path : PyStr) : Except Exn (Option PyStr) :=
  ifPresent record (py "spanId") (fun value =>
    if (Json.lookup record (py "traceId")).isNone then
      .error (refused path ".spanId requires traceId")
    else hex 16 value (dotted path (py "spanId")))

/-- `_parse_log_record`, up to the record it appends. -/
def parseLogRecord (value : Json) (path : PyStr) (resource scope : JsonDict) :
    Except Exn (OtlpRecord × List PyStr) := do
  let record ← requireObject value path
  requireFields record path logFields [py "timeUnixNano", py "body"]
  let timestamp ← unsigned (Json.get record (py "timeUnixNano")) (dotted path (py "timeUnixNano"))
  let body ← anyValue rt limits (Json.get record (py "body")) (dotted path (py "body"))
  let observedTime ← ifPresent record (py "observedTimeUnixNano")
    (fun v => unsigned v (dotted path (py "observedTimeUnixNano")))
  let severityNumber ← ifPresent record (py "severityNumber")
    (fun v => severity v (dotted path (py "severityNumber")))
  let severityText ← ifPresent record (py "severityText")
    (fun v => text limits false v (dotted path (py "severityText")))
  let flagged ← ifPresent record (py "flags") (fun v => flags v (dotted path (py "flags")))
  let traceId ← ifPresent record (py "traceId") (fun v => hex 32 v (dotted path (py "traceId")))
  let spanId ← logSpan record path
  let attrs ← attributes rt limits (Json.get record (py "attributes"))
    (dotted path (py "attributes"))
  let data : OtlpLogRecord :=
    ⟨body, observedTime, severityNumber, severityText, flagged, traceId, spanId⟩
  return ({
    signal := .logs
    name := data.name
    timeUnixNano := timestamp
    resourceAttributes := resource
    scope := scope
    attributes := attrs.clean
    data := data.data }, attrs.stripped)

/-! ## §6. Exports. -/

/-- The buffers of an ingestor: `_records` and `_stripped`. -/
structure Buffers where
  records : List OtlpRecord
  stripped : List PyStr

/-- `self._stripped.update(paths)`. -/
def Buffers.strip (b : Buffers) (paths : List PyStr) : Buffers :=
  { b with stripped := b.stripped ++ paths }

/-- `_append`. -/
def append (b : Buffers) (made : OtlpRecord × List PyStr) (path : PyStr) : Except Exn Buffers :=
  if limits.maxRecords ≤ b.records.length then
    .error (.payloadValidationError
      (path ++ py " would exceed the record limit of " ++ decimal limits.maxRecords))
  else .ok ⟨b.records ++ [made.1], b.stripped ++ made.2⟩

/-- The loop of `_parse_metric`. -/
def parsePoints (metric : OtlpMetric) (path : PyStr) (resource scope : JsonDict) (b : Buffers) :
    Except Exn Buffers :=
  eachFrom (fun i point b => do
    let pointPath := indexed (dotted (dotted path metric.kind.value) (py "dataPoints")) i
    let made ← pointRecord rt limits metric point pointPath resource scope
    append limits b made pointPath) 0 metric.points b

/-- What lies at the end of the walk. -/
def parseItem (signal : OtlpSignal) (value : Json) (path : PyStr) (resource scope : JsonDict)
    (b : Buffers) : Except Exn Buffers :=
  match signal with
  | .traces => do
      let made ← parseSpan rt limits value path resource scope
      append limits b made path
  | .metrics => do
      let metric ← parseMetricHeader limits value path
      parsePoints rt limits metric path resource scope b
  | .logs => do
      let made ← parseLogRecord rt limits value path resource scope
      append limits b made path

/-- One scope of a resource. -/
def parseScopeGroup (signal : OtlpSignal) (path : PyStr) (resource : JsonDict) (raw : Json)
    (b : Buffers) : Except Exn Buffers := do
  let group ← requireObject raw path
  requireFields group path [py "scope", signal.items, py "schemaUrl"] [signal.items]
  let scope ← scope rt limits (Json.get group (py "scope")) (dotted path (py "scope"))
  let _ ← ifPresent group (py "schemaUrl")
    (fun v => text limits true v (dotted path (py "schemaUrl")))
  let items ← requireList (Json.get group signal.items) (dotted path signal.items)
    limits.maxRecords
  eachFrom (fun i item b => parseItem rt limits signal item
    (indexed (dotted path signal.items) i) resource scope.clean b) 0 items (b.strip scope.stripped)

/-- One resource of an export. -/
def parseGroup (signal : OtlpSignal) (path : PyStr) (raw : Json) (b : Buffers) :
    Except Exn Buffers := do
  let group ← requireObject raw path
  requireFields group path [py "resource", signal.scopes, py "schemaUrl"] [signal.scopes]
  let resource ← resource rt limits (Json.get group (py "resource")) (dotted path (py "resource"))
  let _ ← ifPresent group (py "schemaUrl")
    (fun v => text limits true v (dotted path (py "schemaUrl")))
  let scopes ← requireList (Json.get group signal.scopes) (dotted path signal.scopes)
    limits.maxScopesPerResource
  eachFrom (fun i scope b => parseScopeGroup rt limits signal
    (indexed (dotted path signal.scopes) i) resource.clean scope b) 0 scopes
    (b.strip resource.stripped)

/-- The walk that the three signals share, from empty buffers. -/
def parseGroups (signal : OtlpSignal) (value : Json) : Except Exn Buffers := do
  let path := dotted (py "otlp") signal.resources
  let resources ← requireList value path limits.maxResources
  eachFrom (fun i group b => parseGroup rt limits signal (indexed path i) group b) 0 resources
    ⟨[], []⟩

/-- `_parse_traces`. -/
def parseTraces (value : Json) : Except Exn Buffers := parseGroups rt limits .traces value

/-- `_parse_metrics`. -/
def parseMetrics (value : Json) : Except Exn Buffers := parseGroups rt limits .metrics value

/-- `_parse_logs`. -/
def parseLogs (value : Json) : Except Exn Buffers := parseGroups rt limits .logs value

end Ingest

end OtlpJsonIngestor

/-- `OtlpIngestBatch`. -/
structure OtlpIngestBatch where
  scope : Scope
  signal : OtlpSignal
  records : List OtlpRecord
  idempotency : IdempotencyClaim
  receipt : ReceiptDraft
  strippedAttributeKeys : List PyStr

/-- `IdempotencyClaim.to_dict`. -/
def IdempotencyClaim.toDict (rt : Runtime) (claim : IdempotencyClaim) : Except Exn JsonDict := do
  let keySha256 ← sha256Text rt claim.key
  return .ofPresent [
    (py "key_sha256", some (.str keySha256)),
    (py "payload_sha256", some (.str claim.payloadSha256))] (by
      simp only [List.map_cons, List.map_nil]
      decide +kernel)

/-- `OtlpIngestBatch.to_dict`. -/
def OtlpIngestBatch.toDict (rt : Runtime) (batch : OtlpIngestBatch) : Except Exn JsonDict := do
  let idempotency ← batch.idempotency.toDict rt
  return .ofPresent [
    (py "tenant_id", some (.str batch.scope.tenantId.text)),
    (py "workspace_id", some (.str batch.scope.workspaceId.text)),
    (py "signal", some (.str batch.signal.value)),
    (py "truth_label", some (.str TruthLabel.reported.value)),
    (py "record_count", some (.int batch.records.length)),
    (py "stripped_attribute_count", some (.int batch.strippedAttributeKeys.length)),
    (py "idempotency", some idempotency.value),
    (py "records", some (.list (batch.records.map (fun r => r.toDict.value))))]
    (by
      simp only [List.map_cons, List.map_nil]
      decide +kernel)

/-- The payload of the receipt of an export. -/
def otlpPayload (scope : Scope) (signal : OtlpSignal) (recordCount : Nat)
    (payloadSha256 keySha256 : PyStr) (strippedCount : Nat) : JsonDict :=
  .ofPresent [
    (py "tenant_id", some (.str scope.tenantId.text)),
    (py "workspace_id", some (.str scope.workspaceId.text)),
    (py "signal", some (.str signal.value)),
    (py "record_count", some (.int recordCount)),
    (py "payload_sha256", some (.str payloadSha256)),
    (py "idempotency_key_sha256", some (.str keySha256)),
    (py "stripped_attribute_count", some (.int strippedCount)),
    (py "subset", some (.str (py "bounded_scalar_v1")))] (by
      simp only [List.map_cons, List.map_nil]
      decide +kernel)

namespace OtlpJsonIngestor

/-- The containers that an export may have. -/
def containers : List PyStr := [py "resourceSpans", py "resourceMetrics", py "resourceLogs"]

/-- The signal of an export: it has one field, which names it. -/
def signalOf (root : List (PyStr × Json)) : Except Exn OtlpSignal :=
  let unknown := (root.map Prod.fst).filter (fun k => !containers.contains k)
  if root.length ≠ 1 ∨ unknown ≠ [] then
    if unknown ≠ [] then
      .error (.payloadValidationError
        (py "otlp contains unsupported top-level field(s): " ++ joinSorted unknown))
    else
      .error (.payloadValidationError
        (py "otlp must contain exactly one of resourceSpans, resourceMetrics, resourceLogs"))
  else if (Json.lookup root (py "resourceSpans")).isSome then .ok .traces
  else if (Json.lookup root (py "resourceMetrics")).isSome then .ok .metrics
  else .ok .logs

/-- The container of a signal, parsed. -/
def parseSignal (rt : OtlpRuntime) (limits : OtlpLimits) (signal : OtlpSignal) (value : Json) :
    Except Exn Buffers :=
  match signal with
  | .traces => parseTraces rt limits value
  | .metrics => parseMetrics rt limits value
  | .logs => parseLogs rt limits value

/-- The batch of what was parsed. -/
def accept (rt : OtlpRuntime) (scope : Scope) (idempotencyKey : PyStr) (body : List UInt8)
    (signal : OtlpSignal) (b : Buffers) : Except Exn OtlpIngestBatch := do
  if b.records.isEmpty then
    throw (.payloadValidationError (py "otlp export must contain at least one record"))
  let payloadSha := rt.sha256 body
  let idempotency ← IdempotencyClaim.new idempotencyKey payloadSha
  let keySha256 ← sha256Text rt.toRuntime idempotencyKey
  let stripped := sortedSet b.stripped
  let receipt ← ReceiptDraft.new rt.toRuntime (py "ingest.otlp.accepted") (py "telemetry_signal")
    signal.value
    (otlpPayload scope signal b.records.length payloadSha keySha256 stripped.length)
    .reported [py "otlp:" ++ signal.value ++ py ":" ++ payloadSha]
  return ⟨scope, signal, b.records, idempotency, receipt, stripped⟩

/-- `OtlpJsonIngestor.ingest`; every call starts from empty buffers. -/
def ingest (rt : OtlpRuntime) (limits : OtlpLimits) (body : List UInt8) (scope : Scope)
    (idempotencyKey : PyStr) : Except Exn OtlpIngestBatch := do
  let decoded ← strictJsonLoads rt.toInterpreter body limits.maxBodyBytes (py "otlp")
  let root ← requireObject decoded (py "otlp")
  let signal ← signalOf root
  let b ← parseSignal rt limits signal (Json.get root signal.resources)
  accept rt scope idempotencyKey body signal b

end OtlpJsonIngestor

end Lyte
