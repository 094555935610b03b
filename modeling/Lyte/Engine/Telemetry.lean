import Lyte.Domain.Builtins
import Lyte.Intelligence.ForecastLoom
import Lyte.Lib.Tally

/-
  Lyte.Engine.Telemetry — span batches.

  `normalizeOtelSpans` reads a batch span by span (`Batch.read`), cutting every
  text to a length of its own, and then resolves parents in a table of all spans
  by cut id (`Topology.count`).  What `str`, `float` and `round` return is
  taken from `SpanArithmetic`.

  The fields of the result that are the same for every batch (its schema, its
  labels and flags) are left out.
-/

namespace Lyte

open Tally

/-! ## §1. Numbers. -/

/-- What the interpreter computes for span batches. -/
structure SpanArithmetic extends Builtins, Arithmetic where
  /-- `float(value)`. -/
  floatOf : Json → Except Exn PyFloat
  /-- `round(x, digits)`. -/
  round : PyFloat → Nat → PyFloat

section Core

variable (rt : SpanArithmetic)

/-- `finite_float`. -/
def SpanArithmetic.finiteFloat (value : Json) (name : PyStr) (minimum : Option PyFloat) :
    Except Exn PyFloat :=
  match rt.floatOf value with
  | .error .typeError => .error (.valueError (name ++ py " must be numeric"))
  | .error (.valueError _) => .error (.valueError (name ++ py " must be numeric"))
  | .error e => .error e
  | .ok numeric =>
      if !numeric.isFinite then .error (.valueError (name ++ py " must be finite"))
      else
        match minimum with
        | none => .ok numeric
        | some bound =>
            if numeric.lt bound then
              .error (.valueError (name ++ py " must be at least " ++ rt.floatRepr bound))
            else .ok numeric

/-- `clamp01`. -/
def PyFloat.clamp01 (value : PyFloat) : Except Exn PyFloat :=
  if !value.isFinite then .error (.valueError (py "value must be finite"))
  else .ok (PyFloat.min .one (PyFloat.max .zero value))

end Core

/-! ## §2. Spans. -/

structure Span where
  traceId : PyStr
  spanId : PyStr
  parentSpanId : Option PyStr
  service : PyStr
  name : PyStr
  durationMs : PyFloat
  status : PyStr
  kind : PyStr
  attributes : List (PyStr × PyStr)

/-- The attribute names that are dropped. -/
def sensitiveAttributes : List PyStr :=
  [py "prompt", py "response", py "request.body", py "http.request.body", py "db.statement",
    py "authorization", py "cookie"]

section Normalize

variable (rt : SpanArithmetic)

/-- The first 32 attributes, without the sensitive ones. -/
def safeAttributes (attributes : List (PyStr × Json)) : Except Exn (List (PyStr × PyStr)) :=
  (attributes.take 32).foldlM (fun safe a => do
    if sensitiveAttributes.contains (rt.lower a.1) then return safe
    let value ← rt.text a.2
    return upsert safe (a.1.take 80) (fun _ => value.take 240)) []

/-- The attributes of a span. -/
def spanAttributes (raw : List (PyStr × Json)) : Except Exn (List (PyStr × PyStr)) :=
  match Json.get raw (py "attributes") with
  | .dict fields => safeAttributes rt fields
  | other =>
      if other.truthy then .error (.valueError (py "span attributes must be an object"))
      else .ok []

/-- `str(raw.get("parent_span_id") or "")`. -/
def parentText (raw : List (PyStr × Json)) : Except Exn PyStr :=
  let value := Json.get raw (py "parent_span_id")
  if value.truthy then rt.text value else .ok []

/-- `value or None`. -/
def orNone (s : PyStr) : Option PyStr := if s.isEmpty then none else some s

/-- One turn of the first loop, up to the item; `seen` has the keys of `by_span_id`. -/
def normalizeSpan (seen : List PyStr) (value : Json) : Except Exn Span :=
  match value with
  | .dict raw => do
      let traceId ← rt.textOf raw (py "trace_id") []
      let spanId ← rt.textOf raw (py "span_id") []
      let service ← rt.textOf raw (py "service") []
      let name ← rt.textOf raw (py "name") []
      if (strip traceId).isEmpty || (strip spanId).isEmpty || (squeeze service).isEmpty ||
          (squeeze name).isEmpty then
        throw (.valueError (py "trace_id, span_id, service, and name are required"))
      if seen.contains (strip spanId) then
        throw (.valueError (py "span_id values must be unique in a batch"))
      let duration ← rt.finiteFloat ((Json.lookup raw (py "duration_ms")).getD (.float .zero))
        (py "duration_ms") (some .zero)
      let status ← rt.textOf raw (py "status") (py "UNSET")
      if !([py "OK", py "ERROR", py "UNSET"].contains (rt.upper (strip status))) then
        throw (.valueError (py "span status must be OK, ERROR, or UNSET"))
      let attributes ← spanAttributes rt raw
      let parent ← parentText rt raw
      let kind ← rt.textOf raw (py "kind") (py "INTERNAL")
      return {
        traceId := (strip traceId).take 64
        spanId := (strip spanId).take 32
        parentSpanId := orNone (parent.take 32)
        service := (squeeze service).take 100
        name := (squeeze name).take 160
        durationMs := rt.round duration 6
        status := rt.upper (strip status)
        kind := (rt.upper (strip kind)).take 32
        attributes := attributes }
  | _ => .error (.valueError (py "each span must be an object"))

/-- What the first loop has filled. -/
structure Batch where
  normalized : List Span
  bySpanId : List (PyStr × Span)
  services : List (PyStr × List Span)
  traceIds : List PyStr

def Batch.empty : Batch := ⟨[], [], [], []⟩

theorem lawful_pyStr : LawfulBEq PyStr := inferInstance

-- membership of a text is decided by way of one named instance
attribute [local instance] lawful_pyStr

def Batch.add (b : Batch) (item : Span) : Batch where
  normalized := b.normalized ++ [item]
  bySpanId := upsert b.bySpanId item.spanId (fun _ => item)
  services := upsert b.services item.service (fun rows => rows.getD [] ++ [item])
  traceIds := if item.traceId ∈ b.traceIds then b.traceIds else b.traceIds ++ [item.traceId]

def Batch.read (b : Batch) (raw : Json) : Except Exn Batch := do
  let item ← normalizeSpan rt (b.bySpanId.map Prod.fst) raw
  return b.add item

end Normalize

/-! ## §3. Topology. -/

/-- What the second loop counts. -/
structure Topology where
  orphanSpans : Nat
  edges : List ((PyStr × PyStr) × Nat)

/-- One turn of the second loop. -/
def Topology.count (bySpanId : List (PyStr × Span)) (t : Topology) (item : Span) : Topology :=
  match item.parentSpanId with
  | none => t
  | some parentId =>
      match bySpanId.lookup parentId with
      | none => { t with orphanSpans := t.orphanSpans + 1 }
      | some parent =>
          if parent.service ≠ item.service then
            { t with edges := bump t.edges (parent.service, item.service) }
          else t

section Result

variable (rt : SpanArithmetic)

end Result

end Lyte
