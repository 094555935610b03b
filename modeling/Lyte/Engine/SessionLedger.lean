import Lyte.Intelligence.ForecastLoom
import Lyte.Domain.RoundTrip
import Lyte.Domain.Scanned
import Lyte.Lib.KeyedLog

/-
  Lyte.Engine.SessionLedger — observations, partitioned by session.

  `observationReceipt` mints a receipt for one observation; the ledger appends a
  summary of it to a table whose primary key is the receipt id, and reads rows of
  one session scope back.  The ledger is the table, in the order of insertion.

  `time.time()` is an argument of whatever calls it.
-/

namespace Lyte

open KeyedLog

/-! ## §1. Receipts. -/

def maxMemoryPayloadBytes : Nat := 256000

/-- `_ALLOWED_TRUTH`. -/
def allowedTruth : List PyStr :=
  [py "MEASURED", py "REPORTED", py "MODELED", py "SAMPLE", py "ROADMAP", py "UNAVAILABLE"]

/-- What a receipt records of an observation, with its id. -/
structure ObservationReceipt where
  kind : PyStr
  sessionScopeSha256 : PyStr
  payloadSha256 : PyStr
  sourceUrl : PyStr
  observedAt : PyFloat
  truthLabel : PyStr
  receiptId : PyStr
deriving DecidableEq

/-- What the id of a receipt is the digest of. -/
def ObservationReceipt.basis (r : ObservationReceipt) : Json := .dict [
  (py "schema", .str (py "szl.lyte-observation-receipt/v3")),
  (py "kind", .str r.kind),
  (py "session_scope_sha256", .str r.sessionScopeSha256),
  (py "payload_sha256", .str r.payloadSha256),
  (py "source_url", .str r.sourceUrl),
  (py "observed_at", .float r.observedAt),
  (py "truth_label", .str r.truthLabel),
  (py "signature_claimed", .bool false),
  (py "raw_session_token_recorded", .bool false),
  (py "can_authorize", .bool false),
  (py "effectors_enabled", .bool false)]

/-- `text.encode("utf-8")`. -/
def encodeUtf8 (text : PyStr) : Except Exn (List UInt8) :=
  match utf8Encode text with
  | some bytes => .ok bytes
  | none => .error .unicodeEncodeError

section Mint

variable (rt : Runtime)
-- `str.upper`
variable (upper : PyStr → PyStr)

/-- The time of an observation: the given one; else the clock, or zero without a source. -/
def observationTime (sourceUrl : Option PyStr) (observedAt : Option PyFloat) (now : PyFloat) :
    PyFloat :=
  match observedAt with
  | some t => t
  | none => if sourceUrl.isNone then .zero else now

/-- `observation_receipt`. -/
def observationReceipt (scope kind : PyStr) (payload : Json) (truthLabel : PyStr)
    (sourceUrl : Option PyStr) (observedAt : Option PyFloat) (now : PyFloat) :
    Except Exn ObservationReceipt := do
  if !isSha256Hex scope then
    throw (.valueError (py "session scope must be a SHA-256 digest"))
  let label := upper truthLabel
  if !allowedTruth.contains label then
    throw (.valueError (py "unsupported truth label"))
  let text ← canonicalJson rt payload
  let serialized ← encodeUtf8 text
  if maxMemoryPayloadBytes < serialized.length then
    throw (.valueError (py "memory payload exceeds the configured byte budget"))
  let timestamp := observationTime sourceUrl observedAt now
  if timestamp.lt .zero then
    throw (.valueError (py "observed_at must be non-negative"))
  let receipt : ObservationReceipt := {
    kind := kind.take 80
    sessionScopeSha256 := scope
    payloadSha256 := rt.sha256 serialized
    sourceUrl := (sourceUrl.getD []).take 500
    observedAt := timestamp
    truthLabel := label
    receiptId := [] }
  let receiptId ← sha256Json rt receipt.basis
  return { receipt with receiptId := receiptId }

end Mint

/-! ## §2. The ledger. -/

/-- A row of the table `observations`. -/
structure Observation where
  receiptId : PyStr
  sessionScopeSha256 : PyStr
  kind : PyStr
  observedAt : PyFloat
  truthLabel : PyStr
  sourceUrl : PyStr
  payloadSha256 : PyStr
  summaryJson : PyStr
  createdAt : PyFloat

abbrev SessionLedger := List Observation

/-- The arguments of `append`, and what the clock reads meanwhile. -/
structure AppendCall where
  scope : PyStr
  kind : PyStr
  receipt : ObservationReceipt
  summary : Json
  observedClock : PyFloat
  createdClock : PyFloat

/-- `a or b` on strings. -/
def orText (a b : PyStr) : PyStr := if a.isEmpty then b else a

section Append

variable (rt : Runtime)

/-- The row that `append` inserts, if its checks pass and SQLite can bind its texts.  A
time of zero is false, so that the clock is stored in its place. -/
def appendedRow (c : AppendCall) : Except Exn Observation := do
  if !isSha256Hex c.scope then
    throw (.valueError (py "session scope must be a SHA-256 digest"))
  if !isSha256Hex c.receipt.receiptId then
    throw (.valueError (py "receipt_id must be a SHA-256 digest"))
  if c.receipt.sessionScopeSha256 ≠ c.scope then
    throw (.valueError (py "receipt scope does not match the caller scope"))
  let _ ← canonicalJson rt c.summary
  -- the text is parsed, so that every dict is sorted, and spelled again
  let encoded ← canonicalJson rt c.summary.canonical
  let bytes ← encodeUtf8 encoded
  if maxMemoryPayloadBytes < bytes.length then
    throw (.valueError (py "memory summary exceeds the configured byte budget"))
  let row : Observation := {
    receiptId := c.receipt.receiptId
    sessionScopeSha256 := c.scope
    kind := c.kind.take 80
    observedAt := if c.receipt.observedAt.eq .zero then c.observedClock else c.receipt.observedAt
    truthLabel := orText c.receipt.truthLabel (py "UNAVAILABLE")
    sourceUrl := c.receipt.sourceUrl.take 500
    payloadSha256 := c.receipt.payloadSha256
    summaryJson := encoded
    createdAt := c.createdClock }
  if !([row.kind, row.truthLabel, row.sourceUrl, row.payloadSha256].all noSurrogates) then
    throw .unicodeEncodeError
  return row

/-- SQLite binds NaN as NULL. -/
def Observation.hasNull (o : Observation) : Bool :=
  o.observedAt.num = .nan || o.createdAt.num = .nan

/-- `SessionLedger.append`: INSERT OR IGNORE also ignores a row that NOT NULL refuses. -/
def SessionLedger.append (ledger : SessionLedger) (c : AppendCall) : Except Exn SessionLedger := do
  let row ← appendedRow rt c
  if row.hasNull then return ledger
  return insertOrIgnore Observation.receiptId ledger row

/-- A call that raises leaves the ledger alone. -/
def SessionLedger.after (ledger : SessionLedger) (c : AppendCall) : SessionLedger :=
  match ledger.append rt c with
  | .ok ledger' => ledger'
  | .error _ => ledger

/-- The ledger after a sequence of calls. -/
def SessionLedger.run (ledger : SessionLedger) (calls : List AppendCall) : SessionLedger :=
  calls.foldl (SessionLedger.after rt) ledger

end Append

/-! ## §3. Reads. -/

/-- What a read returns of a row; `summary_json` is parsed. -/
structure SessionRecord where
  receiptId : PyStr
  kind : PyStr
  observedAt : PyFloat
  truthLabel : PyStr
  sourceUrl : PyStr
  payloadSha256 : PyStr
  summaryJson : PyStr
deriving DecidableEq

def Observation.record (o : Observation) : SessionRecord where
  receiptId := o.receiptId
  kind := o.kind
  observedAt := o.observedAt
  truthLabel := o.truthLabel
  sourceUrl := o.sourceUrl
  payloadSha256 := o.payloadSha256
  summaryJson := o.summaryJson

def Observation.time (o : Observation) : Rat := o.observedAt.value

/-- The rows of a scope, and of a kind if one is asked for. -/
def SessionLedger.scoped (ledger : SessionLedger) (scope : PyStr) (kind : Option PyStr) :
    List Observation :=
  ledger.filter (fun o => o.sessionScopeSha256 == scope &&
    ((kind.getD []).isEmpty || o.kind == (kind.getD []).take 80))

/-- `SessionLedger.recent`. -/
def SessionLedger.recent (engine : Descending Observation.time) (ledger : SessionLedger)
    (scope : PyStr) (limit : Int) (kind : Option PyStr) : Except Exn (List SessionRecord) :=
  if !isSha256Hex scope then
    .error (.valueError (py "session scope must be a SHA-256 digest"))
  else
    let bounded := max 1 (min limit 100)
    .ok (((engine.order (ledger.scoped scope kind)).take bounded.toNat).map Observation.record)

/-- `SessionLedger.get`. -/
def SessionLedger.get (ledger : SessionLedger) (scope receiptId : PyStr) :
    Except Exn (Option SessionRecord) :=
  if !isSha256Hex scope then
    .error (.valueError (py "session scope must be a SHA-256 digest"))
  else if !isSha256Hex receiptId then .ok none
  else .ok ((ledger.find? (fun o =>
    o.sessionScopeSha256 == scope && o.receiptId == receiptId)).map Observation.record)

end Lyte
