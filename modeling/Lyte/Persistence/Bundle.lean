import Lyte.Persistence.Store

/-
  Lyte.Persistence.Bundle — analysis bundles.

  A bundle is a receipt, the key record that names it, a memory record and nine
  anatomy traces, written in one transaction.  It is not stored as such:
  `resolveAnalysisBundle` finds the memory record by the receipt's hash and the
  traces by the trace id in the receipt's payload, and checks all of them
  against their canonical bases and against each other.
-/

namespace Lyte

open Transact

structure AnalysisBundle where
  receipt : ReceiptRecord
  memory : MemoryRecord
  traces : List AnatomyTraceRecord
  idempotentReplay : Bool

variable (rt : Runtime) (d : Dialect)

/-! ## §1. Canonical projections. -/

/-- `_canonical_timestamp`: SQLite's naive values are read as UTC. -/
def canonicalTimestamp (value : Stamp) : Except Exn PyStr :=
  let value := if value.offset.isNone && d == .sqlite then ⟨value.wall, some 0⟩ else value
  match isoformatZ value with
  | .ok text => .ok text
  | .error e =>
      if e.isValueLike then
        .error (.persistenceError (py "durable record has an invalid timestamp"))
      else .error e

/-- The comparison inside `_validate_canonical_projection`. -/
def canonicalProjectionValid (m : AppendOnlyMixin) (scope : Scope) (schema : PyStr)
    (k : StreamKind) (data : List (PyStr × Json)) : Except Exn Bool := do
  let createdAt ← canonicalTimestamp d m.createdAt
  let createdAt ← rt.fromisoformat createdAt
  let expected ← basis schema scope k m.sequence m.previousHash createdAt data
  if m.inScope scope && m.basisJson.pyEq expected then
    let digest ← sha256Json rt expected
    return digest == m.recordHash
  else return false

/-- `_validate_canonical_projection`. -/
def validateCanonicalProjection (m : AppendOnlyMixin) (scope : Scope) (schema : PyStr)
    (k : StreamKind) (data : List (PyStr × Json)) : Except Exn Unit :=
  match canonicalProjectionValid rt d m scope schema k data with
  | .ok true => .ok ()
  | .ok false =>
      .error (.persistenceError (py "durable record failed canonical projection validation"))
  | .error e =>
      if e.isValueLike then
        .error (.persistenceError (py "durable record has an invalid canonical basis"))
      else .error e

def validateIdempotency (r : IdempotencyRecord) (scope : Scope) : Except Exn Unit :=
  validateCanonicalProjection rt d r.toAppendOnlyMixin scope idempotencySchema .idempotency
    (idempotencyData r.keyDigest r.requestDigest r.responseReceiptHash)

def validateReceipt (r : ReceiptRecord) (scope : Scope) : Except Exn Unit :=
  validateCanonicalProjection rt d r.toAppendOnlyMixin scope receiptSchema .receipts
    (receiptData r.kind r.subjectType r.subjectId r.truthLabel r.payloadJson r.payloadSha256
      r.evidenceRefs)

def validateMemory (r : MemoryRecord) (scope : Scope) : Except Exn Unit :=
  validateCanonicalProjection rt d r.toAppendOnlyMixin scope memorySchema .memory
    (memoryData r.scopeDigest r.memoryKind r.summary r.truthLabel r.evidenceRefs r.subjects
      r.metadataJson (Json.ofOption r.receiptHash))

/-- The `data` an anatomy trace binds. -/
def anatomyData (tenantId workspaceId traceId spanId : PyStr) (parentSpanId : Option PyStr)
    (organ operation state truthLabel startedAt : PyStr) (completedAt : Json)
    (inputSha256 outputSha256 : Option PyStr) (attributes : Json) : List (PyStr × Json) := [
  (py "tenant_id", .str tenantId),
  (py "workspace_id", .str workspaceId),
  (py "trace_id", .str traceId),
  (py "span_id", .str spanId),
  (py "parent_span_id", Json.ofOption parentSpanId),
  (py "organ", .str organ),
  (py "operation", .str operation),
  (py "state", .str state),
  (py "truth_label", .str truthLabel),
  (py "started_at", .str startedAt),
  (py "completed_at", completedAt),
  (py "input_sha256", Json.ofOption inputSha256),
  (py "output_sha256", Json.ofOption outputSha256),
  (py "attributes", attributes)]

def validateTrace (r : AnatomyTraceRecord) (scope : Scope) : Except Exn Unit := do
  let startedAt ← canonicalTimestamp d r.startedAt
  let completedAt ← match r.completedAt with
    | some s => (canonicalTimestamp d s).map Json.str
    | none => .ok .null
  validateCanonicalProjection rt d r.toAppendOnlyMixin scope anatomySchema .anatomy
    (anatomyData scope.tenantId.text scope.workspaceId.text r.traceId r.spanId r.parentSpanId
      r.organ r.operation r.state r.truthLabel startedAt completedAt r.inputSha256 r.outputSha256
      r.attributesJson)

/-! ## §2. Resolving a bundle. -/

/-- The fields of a dict; `none` on anything else. -/
def dictFields : Json → Option (List (PyStr × Json))
  | .dict fields => some fields
  | _ => none

/-- `trace.attributes_json.get(key)`, on attributes known to be a dict. -/
def AnatomyTraceRecord.attribute (t : AnatomyTraceRecord) (key : PyStr) : Json :=
  match t.attributesJson with
  | .dict fields => Json.get fields key
  | _ => .null

/-- `text in container`. -/
def pyIn (text : PyStr) : Json → Except Exn Bool
  | .list items => .ok (items.any (fun x => x.pyEq (.str text)))
  | .dict fields => .ok ((fields.map Prod.fst).contains text)
  | .str s => .ok (s.tails.any (fun t => text.isPrefixOf t))
  | _ => .error .typeError

/-- The traces of one trace id, `ORDER BY sequence`. -/
def findTraces (db : Db) (scope : Scope) (traceId : PyStr) : List AnatomyTraceRecord :=
  (db.anatomy.filter (fun t => t.inScope scope && t.traceId == traceId)).insertionSort
    (fun a b => a.sequence ≤ b.sequence)

/-- The memory records of one receipt, in no order. -/
def findMemory (db : Db) (scope : Scope) (receiptHash : PyStr) : List MemoryRecord :=
  db.memory.filter (fun m => m.inScope scope && m.receiptHash == some receiptHash)

/-- Consecutive stages are linked by parent span and digest. -/
def stagesLinked : List AnatomyTraceRecord → Bool
  | previous :: current :: rest =>
      current.parentSpanId == some previous.spanId &&
        current.inputSha256 == previous.outputSha256 && stagesLinked (current :: rest)
  | _ => true

/-- The stage sequences are 1 … 9. -/
def stageSequences (traces : List AnatomyTraceRecord) : Bool :=
  Json.pyEqItems (traces.map (fun t => t.attribute (py "sequence")))
    ([1, 2, 3, 4, 5, 6, 7, 8, 9].map Json.int)

/-- What is digested of one stage. -/
def stageBasis (t : AnatomyTraceRecord) : Json := .dict [
  (py "sequence", t.attribute (py "sequence")),
  (py "stage", t.attribute (py "stage")),
  (py "state", t.attribute (py "stage_state")),
  (py "input_sha256", Json.ofOption t.inputSha256),
  (py "basis_sha256", t.attribute (py "basis_sha256")),
  (py "output_sha256", Json.ofOption t.outputSha256)]

/-- The trace id in a receipt's payload. -/
def payloadTraceId (receipt : ReceiptRecord) : Except Exn (List (PyStr × Json) × PyStr) :=
  match dictFields receipt.payloadJson with
  | none => .error (.persistenceError (py "analysis receipt has an invalid payload"))
  | some payload =>
      match Json.get payload (py "trace_id") with
      | .str traceId => .ok (payload, traceId)
      | _ => .error (.persistenceError
          (py "analysis receipt is missing its anatomy trace linkage"))

/-- The bundle is complete: what `_resolve_analysis_bundle` checks before it
validates the projections.  Returns the memory record and its metadata. -/
def completeBundle (traceId : PyStr) (memory : Option MemoryRecord)
    (traces : List AnatomyTraceRecord) :
    Except Exn (MemoryRecord × List (PyStr × Json)) := do
  if traces.any (fun t => (dictFields t.attributesJson).isNone) then
    throw (.persistenceError (py "analysis trace has invalid stage attributes"))
  let incomplete := Exn.persistenceError
    (py "analysis receipt references an incomplete durable bundle")
  match memory with
  | none => throw incomplete
  | some memory =>
      let linksAreValid :=
        (match traces with
          | [] => false
          | first :: _ => first.parentSpanId.isNone) && stagesLinked traces
      if traces.length ≠ 9 || !stageSequences traces || !linksAreValid then throw incomplete
      match dictFields memory.metadataJson with
      | none => throw incomplete
      | some metadata =>
          if !(Json.get metadata (py "trace_id")).pyEq (.str traceId) then throw incomplete
          return (memory, metadata)

/-- The receipt links what was found. -/
def bundleLinked (scope : Scope) (receipt : ReceiptRecord) (payload : List (PyStr × Json))
    (memory : MemoryRecord) (metadata : List (PyStr × Json)) (traces : List AnatomyTraceRecord)
    (anatomyDigest : PyStr) : Except Exn Bool := do
  if !(Json.get payload (py "anatomy_schema")).pyEq (.str (py "szl.lyte.analysis-anatomy/v1")) then
    return false
  if !(Json.get payload (py "anatomy_sha256")).pyEq (.str anatomyDigest) then return false
  if !(Json.ofOption (traces.head?.bind AnatomyTraceRecord.inputSha256)).pyEq
      (Json.get payload (py "input_sha256")) then
    return false
  let partitionDigest ← enterpriseMemoryPartition rt scope
  if memory.scopeDigest ≠ partitionDigest then return false
  if memory.truthLabel ≠ receipt.truthLabel then return false
  let named ← pyIn receipt.recordHash memory.evidenceRefs
  if !named then return false
  match Json.get metadata (py "approved_knowledge") with
  | .bool false => pure ()
  | _ => return false
  if !(Json.get metadata (py "analysis_input_sha256")).pyEq
      (Json.get payload (py "input_sha256")) then
    return false
  if !(Json.get metadata (py "analysis_output_sha256")).pyEq
      (Json.get payload (py "output_sha256")) then
    return false
  return traces.all (fun t => t.truthLabel == receipt.truthLabel &&
    (t.attribute (py "source_revision")).pyEq (Json.get payload (py "source_revision")))

/-- The checks of `_resolve_analysis_bundle` on what its queries found. -/
def checkBundle (scope : Scope) (receipt : ReceiptRecord) (payload : List (PyStr × Json))
    (traceId : PyStr) (memory : Option MemoryRecord) (traces : List AnatomyTraceRecord)
    (replay : Bool) : Except Exn AnalysisBundle := do
  let (memory, metadata) ← completeBundle traceId memory traces
  validateMemory rt d memory scope
  traces.forM (fun t => validateTrace rt d t scope)
  let anatomyDigest ← sha256Json rt (.list (traces.map stageBasis))
  let linked ← bundleLinked rt scope receipt payload memory metadata traces anatomyDigest
  if !linked then
    throw (.persistenceError (py "analysis durable bundle failed receipt linkage validation"))
  return ⟨receipt, memory, traces, replay⟩

/-- `_resolve_analysis_bundle`. -/
def resolveAnalysisBundle (sup : Supply) (scope : Scope) (record : IdempotencyRecord)
    (requestDigest : PyStr) (replay : Bool) : StoreBody AnalysisBundle := do
  Body.ofExcept (validateIdempotency rt d record scope)
  let receipt ← resolveIdempotentReceipt scope record requestDigest
  Body.ofExcept (validateReceipt rt d receipt scope)
  let (payload, traceId) ← Body.ofExcept (payloadTraceId receipt)
  let memory ← Body.select
    (fun db => sup.pickMemory.choose (findMemory db scope receipt.recordHash))
  let traces ← Body.select (fun db => findTraces db scope traceId)
  Body.ofExcept (checkBundle rt d scope receipt payload traceId memory traces replay)

/-! ## §3. Appending a bundle. -/

/-- `int(value)`. -/
def pyInt : Json → Except Exn Int
  | .bool b => .ok (if b then 1 else 0)
  | .int n => .ok n
  | .float f =>
      match f.num with
      | .fin _ => .ok f.trunc
      | .inf _ => .error .overflowError
      | .nan => .error (.valueError (py "cannot convert float NaN to integer"))
  | .str s =>
      match rt.intOfStr s with
      | some n => .ok n
      | none => .error (.valueError (py "invalid literal for int() with base 10"))
  | _ => .error .typeError

def Json.isTrue : Json → Bool
  | .bool true => true
  | _ => false

def Json.isFalse : Json → Bool
  | .bool false => true
  | _ => false

/-- The traces form one parent-span and digest chain. -/
def tracesLinked : List AnatomyTrace → Bool
  | previous :: current :: rest =>
      current.parentSpanId == some previous.spanId &&
        current.inputSha256 == previous.outputSha256 && tracesLinked (current :: rest)
  | _ => true

/-- A stage is complete and keeps the human-sovereign boundary. -/
def sovereign (t : AnatomyTrace) : Bool :=
  t.state == .completed && t.outputSha256.isSome &&
    (t.attributes.get (py "human_approval_required")).isTrue &&
    (t.attributes.get (py "can_authorize")).isFalse &&
    (t.attributes.get (py "can_execute")).isFalse &&
    (t.attributes.get (py "effectors_enabled")).isFalse

/-- The argument checks of `append_analysis_bundle`. -/
def checkBundleArguments (scope : Scope) (receiptDraft : ReceiptDraft) (memoryDraft : MemoryDraft)
    (traces : List AnatomyTrace) (requestDigest : PyStr) : Except Exn Unit := do
  if !isSha256Hex requestDigest then
    throw (.valueError (py "request_digest must be a lowercase SHA-256 digest"))
  if traces.length ≠ 9 then
    throw (.valueError (py "analysis bundle requires exactly nine anatomy traces"))
  match traces with
  | [] => throw (.valueError (py "analysis bundle requires exactly nine anatomy traces"))
  | first :: _ =>
    if traces.any (fun t => t.traceId ≠ first.traceId) || traces.any (fun t => t.scope ≠ scope) then
      throw (.valueError (py "analysis traces must share one trace and authenticated scope"))
    let observed ← traces.mapM (fun t =>
      pyInt rt ((Json.lookup t.attributes.fields (py "sequence")).getD (.int (-1))))
    if observed ≠ [1, 2, 3, 4, 5, 6, 7, 8, 9] then
      throw (.valueError (py "analysis traces must contain the canonical stage sequence"))
    let traceId := Json.str first.traceId.text
    if !(receiptDraft.payload.get (py "trace_id")).pyEq traceId then
      throw (.valueError (py "analysis receipt must link the persisted trace_id"))
    if !(memoryDraft.metadata.get (py "trace_id")).pyEq traceId then
      throw (.valueError (py "analysis memory must link the persisted trace_id"))
    if first.parentSpanId.isSome then
      throw (.valueError (py "the first analysis stage cannot have a parent span"))
    if !tracesLinked traces then
      throw (.valueError (py "analysis traces must form one digest and parent-span chain"))
    if !traces.all sovereign then
      throw (.valueError (py "analysis traces must preserve the human-sovereign boundary"))

/-- The loop that seals the trace rows one after another. -/
def traceRows (sup : Supply) (scope : Scope) (at_ : Stamp) :
    List AnatomyTrace → Nat → Int → Option PyStr → Except Exn (List AnatomyTraceRecord)
  | [], _, _, _ => return []
  | trace :: traces, i, sequence, previousHash => do
      let row ← anatomyRow rt (sup.uuid i) scope trace sequence previousHash at_
      let rows ← traceRows sup scope at_ traces (i + 1) (sequence + 1) (some row.recordHash)
      return row :: rows

/-- The rows of a new bundle. -/
structure BundleRows where
  receipt : ReceiptRecord
  idempotency : IdempotencyRecord
  memory : MemoryRecord
  traces : List AnatomyTraceRecord

/-- Build the rows of a new bundle on the four locked heads. -/
def bundleRows (sup : Supply) (scope : Scope) (receiptDraft : ReceiptDraft)
    (memoryDraft : MemoryDraft) (traces : List AnatomyTrace)
    (keyDigest requestDigest partitionDigest : PyStr) (at_ : Stamp)
    (receiptHead idempotencyHead memoryHead anatomyHead : StreamHeadRecord) :
    Except Exn BundleRows := do
  let receipt ← receiptRow rt (sup.uuid 0) scope receiptDraft (receiptHead.lastSequence + 1)
    receiptHead.lastHash at_
  let idempotency ← idempotencyRow rt (sup.uuid 1) scope keyDigest requestDigest
    receipt.recordHash (idempotencyHead.lastSequence + 1) idempotencyHead.lastHash at_
  let memory ← memoryRow rt (sup.uuid 2) scope memoryDraft partitionDigest
    (fromkeys (memoryDraft.evidenceRefs ++ [receipt.recordHash])) receipt.recordHash
    (memoryHead.lastSequence + 1) memoryHead.lastHash at_
  let rows ← traceRows rt sup scope at_ traces 3 (anatomyHead.lastSequence + 1)
    anatomyHead.lastHash
  return ⟨receipt, idempotency, memory, rows⟩

/-- The head behind appended rows. -/
def headBehind (head : StreamHeadRecord) (at_ : Stamp) (rows : List AppendOnlyMixin) :
    StreamHeadRecord :=
  match rows.getLast? with
  | some m => advanceHead head m.sequence m.recordHash at_
  | none => head

/-- The flush of a new bundle. -/
def BundleRows.appends (r : BundleRows) (at_ : Stamp)
    (receiptHead idempotencyHead memoryHead anatomyHead : StreamHeadRecord) :
    List StreamAppend := [
  ⟨[.receipt r.receipt],
    advanceHead receiptHead r.receipt.sequence r.receipt.recordHash at_⟩,
  ⟨[.idempotency r.idempotency],
    advanceHead idempotencyHead r.idempotency.sequence r.idempotency.recordHash at_⟩,
  ⟨[.memory r.memory], advanceHead memoryHead r.memory.sequence r.memory.recordHash at_⟩,
  ⟨r.traces.map .anatomy,
    headBehind anatomyHead at_ (r.traces.map AnatomyTraceRecord.toAppendOnlyMixin)⟩]

/-- The transaction of `append_analysis_bundle`. -/
def appendAnalysisBundleBody (sup : Supply) (scope : Scope) (receiptDraft : ReceiptDraft)
    (memoryDraft : MemoryDraft) (traces : List AnatomyTrace)
    (keyDigest requestDigest partitionDigest : PyStr) (at_ : Stamp) :
    StoreBody AnalysisBundle := do
  assertScope scope
  let existing ← Body.select (fun db => findIdempotency db scope keyDigest)
  match existing with
  | some record => resolveAnalysisBundle rt d sup scope record requestDigest true
  | none =>
    let receiptHead ← lockedHead scope .receipts
    let idempotencyHead ← lockedHead scope .idempotency
    let memoryHead ← lockedHead scope .memory
    let anatomyHead ← lockedHead scope .anatomy
    -- a competing writer may have committed the key while the locks were waited for
    let existing ← Body.select (fun db => findIdempotency db scope keyDigest)
    match existing with
    | some record => resolveAnalysisBundle rt d sup scope record requestDigest true
    | none =>
      let rows ← Body.ofExcept (bundleRows rt sup scope receiptDraft memoryDraft traces keyDigest
        requestDigest partitionDigest at_ receiptHead idempotencyHead memoryHead anatomyHead)
      Body.flush (appendWrites
        (rows.appends at_ receiptHead idempotencyHead memoryHead anatomyHead))
      resolveAnalysisBundle rt d sup scope rows.idempotency requestDigest false

/-- The recovery lookup of `append_analysis_bundle`. -/
def recoverBundle (sup : Supply) (scope : Scope) (keyDigest requestDigest : PyStr) :
    StoreBody AnalysisBundle := do
  let existing ← Body.select (fun db => findIdempotency db scope keyDigest)
  match existing with
  | some record => resolveAnalysisBundle rt d sup scope record requestDigest true
  | none => Body.raise (.persistenceError
      (py "analysis bundle append conflicted with concurrent state"))

/-- The exception handlers of `append_analysis_bundle`. -/
def bundleRecovery (sup : Supply) (scope : Scope) (keyDigest requestDigest : PyStr) (e : Exn) :
    StoreProg AnalysisBundle :=
  if e.isIntegrityError then
    (readSession (recoverBundle rt d sup scope keyDigest requestDigest)).tryCatch (fun e =>
      if e.isSQLAlchemyError then
        .raise (.persistenceError (py "analysis bundle recovery is unavailable"))
      else .raise e)
  else if e.isSQLAlchemyError then
    .raise (.persistenceError (py "analysis durable bundle database operation failed"))
  else .raise e

/-- `append_analysis_bundle`. -/
def appendAnalysisBundle (sup : Supply) (scope : Scope) (receiptDraft : ReceiptDraft)
    (memoryDraft : MemoryDraft) (traces : List AnatomyTrace) (idempotencyKey requestDigest : PyStr)
    (createdAt : Option Stamp) : StoreProg AnalysisBundle := do
  Prog.ofExcept (checkBundleArguments rt scope receiptDraft memoryDraft traces requestDigest)
  let at_ := createdAt.getD (sup.now 0).stamp
  let keyDigest ← Prog.ofExcept (idempotencyDigest rt scope idempotencyKey)
  let partitionDigest ← Prog.ofExcept (enterpriseMemoryPartition rt scope)
  (transaction (appendAnalysisBundleBody rt d sup scope receiptDraft memoryDraft traces keyDigest
    requestDigest partitionDigest at_)).tryCatch
    (bundleRecovery rt d sup scope keyDigest requestDigest)

end Lyte
