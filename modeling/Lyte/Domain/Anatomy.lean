import Lyte.Domain.Receipts

/-
  Lyte.Domain.Anatomy — the traces of one analysis.
-/

namespace Lyte

/-! ## §1. Traces. -/

inductive AnatomyOrgan where
  | source | signal | correlation | reasoning | trustGate | receiptBus | secondBrain | egress
deriving DecidableEq

def AnatomyOrgan.value : AnatomyOrgan → PyStr
  | .source => py "source"
  | .signal => py "signal"
  | .correlation => py "correlation"
  | .reasoning => py "reasoning"
  | .trustGate => py "trust_gate"
  | .receiptBus => py "receipt_bus"
  | .secondBrain => py "second_brain"
  | .egress => py "egress"

inductive TraceState where
  | started | completed | failed | unavailable
deriving DecidableEq

def TraceState.value : TraceState → PyStr
  | .started => py "STARTED"
  | .completed => py "COMPLETED"
  | .failed => py "FAILED"
  | .unavailable => py "UNAVAILABLE"

structure AnatomyTrace where
  scope : Scope
  traceId : Uuid
  spanId : Uuid
  organ : AnatomyOrgan
  operation : PyStr
  state : TraceState
  truthLabel : TruthLabel
  startedAt : Stamp
  parentSpanId : Option Uuid
  completedAt : Option Stamp
  inputSha256 : Option PyStr
  outputSha256 : Option PyStr
  attributes : JsonDict

/-- `isoformat_z(value) if value else None`. -/
def isoOrNull : Option Stamp → Except Exn Json
  | none => .ok .null
  | some s => (isoformatZ s).map .str

/-- `AnatomyTrace.to_dict`. -/
def AnatomyTrace.toDict (t : AnatomyTrace) : Except Exn (List (PyStr × Json)) := do
  let startedAt ← isoformatZ t.startedAt
  let completedAt ← isoOrNull t.completedAt
  return [
    (py "tenant_id", .str t.scope.tenantId.text),
    (py "workspace_id", .str t.scope.workspaceId.text),
    (py "trace_id", .str t.traceId.text),
    (py "span_id", .str t.spanId.text),
    (py "parent_span_id", Json.ofOption (t.parentSpanId.map Uuid.text)),
    (py "organ", .str t.organ.value),
    (py "operation", .str t.operation),
    (py "state", .str t.state.value),
    (py "truth_label", .str t.truthLabel.value),
    (py "started_at", .str startedAt),
    (py "completed_at", completedAt),
    (py "input_sha256", Json.ofOption t.inputSha256),
    (py "output_sha256", Json.ofOption t.outputSha256),
    (py "attributes", t.attributes.json)]

/-! ## §2. How traces are made. -/

section Make

variable (rt : Runtime)

/-- The digest check of one field. -/
def requireDigest (name : PyStr) (digest : Option PyStr) : Except Exn Unit :=
  if digest.any (fun d => !isSha256Hex d) then
    .error (.valueError (name ++ py " must be a lowercase SHA-256 digest"))
  else .ok ()

/-- The times of a trace: terminal traces have an end, and only they. -/
def requireTimes (state : TraceState) (startedAt : Stamp) (completedAt : Option Stamp) :
    Except Exn Unit := do
  let _ ← isoformatZ startedAt
  if let some completed := completedAt then
    let _ ← isoformatZ completed
    if completed.instant < startedAt.instant then
      throw (.valueError (py "completed_at cannot precede started_at"))
  if state = .started && completedAt.isSome then
    throw (.valueError (py "STARTED traces cannot have completed_at"))
  if state ≠ .started && completedAt.isNone then
    throw (.valueError (py "terminal traces require completed_at"))

/-- `AnatomyTrace.__post_init__`. -/
def AnatomyTrace.checked (t : AnatomyTrace) : Except Exn AnatomyTrace := do
  requireName (py "operation") t.operation
  requireTimes t.state t.startedAt t.completedAt
  requireDigest (py "input_sha256") t.inputSha256
  requireDigest (py "output_sha256") t.outputSha256
  assertNoSensitiveKeys rt t.attributes.json (py "attributes")
  return t

/-- `AnatomyTrace.start`. -/
def AnatomyTrace.start (scope : Scope) (organ : AnatomyOrgan) (operation : PyStr)
    (traceId spanId : Uuid) (parentSpanId : Option Uuid) (truthLabel : TruthLabel)
    (inputSha256 : Option PyStr) (attributes : JsonDict) (now : Instant) :
    Except Exn AnatomyTrace :=
  AnatomyTrace.checked rt {
    scope := scope
    traceId := traceId
    spanId := spanId
    organ := organ
    operation := operation
    state := .started
    truthLabel := truthLabel
    startedAt := now.stamp
    parentSpanId := parentSpanId
    completedAt := none
    inputSha256 := inputSha256
    outputSha256 := none
    attributes := attributes }

/-- `AnatomyTrace.finish`, without new attributes and with the label it has. -/
def AnatomyTrace.finish (t : AnatomyTrace) (state : TraceState) (outputSha256 : Option PyStr)
    (now : Instant) : Except Exn AnatomyTrace :=
  if t.state ≠ .started then
    .error (.valueError (py "only STARTED traces can be finished"))
  else if state = .started then
    .error (.valueError (py "finish requires a terminal state"))
  else
    AnatomyTrace.checked rt { t with
      state := state
      completedAt := some now.stamp
      outputSha256 := outputSha256 }

variable {rt}

theorem requireDigest_ok {name : PyStr} {digest : Option PyStr}
    (h : ∀ d, digest = some d → isSha256Hex d = true) : requireDigest name digest = .ok () := by
  unfold requireDigest
  cases digest with
  | none => rfl
  | some d =>
    have hd := h d rfl
    rw [if_neg]
    show ¬ (!isSha256Hex d) = true
    rw [hd]
    decide

theorem requireTimes_started (now : Instant) : requireTimes .started now.stamp none = .ok () := by
  unfold requireTimes
  rw [isoformatZ_instant]
  rfl

theorem requireTimes_finished {state : TraceState} (hstate : state ≠ .started)
    {started completed : Instant} (h : started.micros ≤ completed.micros) :
    requireTimes state started.stamp (some completed.stamp) = .ok () := by
  have horder : ¬ completed.stamp.instant < started.stamp.instant := by
    unfold Stamp.instant Instant.stamp
    simp only [Option.getD_some]
    omega
  unfold requireTimes
  rw [isoformatZ_instant]
  simp only [isoformatZ_instant, bind, Except.bind, if_neg horder, hstate, decide_false,
    Bool.false_and, Option.isNone_some, Bool.and_false]
  rfl

/-- **A trace is admitted** if its operation is a name, its times are in order, its digests
are digests and its attributes name no credential. -/
theorem AnatomyTrace.checked_ok {t : AnatomyTrace} (hname : isName t.operation = true)
    (htimes : requireTimes t.state t.startedAt t.completedAt = .ok ())
    (hinput : ∀ d, t.inputSha256 = some d → isSha256Hex d = true)
    (houtput : ∀ d, t.outputSha256 = some d → isSha256Hex d = true)
    (hkeys : sensitivePath rt t.attributes.json (py "attributes") = none) :
    t.checked rt = .ok t := by
  unfold AnatomyTrace.checked requireName assertNoSensitiveKeys
  rw [if_pos hname, htimes, requireDigest_ok hinput, requireDigest_ok houtput, hkeys]
  rfl

end Make

end Lyte
