import Mathlib.Data.List.Sort
import Lyte.Persistence.Models

/-
  Lyte.Persistence.Store — the append-only store.

  Every operation of `LyteStore` is a call in the sense of `Lib/Program.lean`:
  `assertScope`, `lockedHead` and the lookups are its statements, the row
  constructors are computations between them, and `flush` writes what was
  added to the session.  `AppendOnlyMixin.seal` is what the writers share: the
  basis of the next row of a stream, its digest, and the columns both fill.
-/

namespace Lyte

open Transact

abbrev StoreBody (α : Type) := Body Db Write RowLock Exn α
abbrev StoreProg (α : Type) := Prog Db Write RowLock Exn α

/-- Picks one of several rows: a SELECT without ORDER BY returns any of the
rows that match. -/
structure Pick (α : Type) where
  choose : List α → Option α
  mem : ∀ {l a}, choose l = some a → a ∈ l
  isSome : ∀ {l}, l ≠ [] → (choose l).isSome = true

/-- The row that was written first. -/
def Pick.first (α : Type) : Pick α where
  choose := List.head?
  mem := List.mem_of_head?
  isSome {l} hl := by
    cases l with
    | nil => exact absurd rfl hl
    | cons => rfl

/-- What one call draws from outside: clock readings, uuid4 values, and the row
order of the database. -/
structure Supply where
  now : Nat → Instant
  uuid : Nat → PyStr
  pickMemory : Pick MemoryRecord

/-! ## §1. Scopes and heads. -/

/-- `_assert_scope`. -/
def assertScope (scope : Scope) : StoreBody Unit := do
  let row ← Body.select (fun db => db.workspaces.find? (fun w => w.id == scope.workspaceId.text))
  if row.any (fun w => w.tenantId == scope.tenantId.text) then return ()
  else Body.raise (.scopeNotFound (py "workspace does not exist in the requested tenant"))

/-- The head row of a stream. -/
def headOf (db : Db) (scope : Scope) (k : StreamKind) : Option StreamHeadRecord :=
  db.head? scope.tenantId.text scope.workspaceId.text k.value

def headLock (scope : Scope) (k : StreamKind) : RowLock :=
  .head scope.tenantId.text scope.workspaceId.text k.value

/-- `_locked_head`. -/
def lockedHead (scope : Scope) (k : StreamKind) : StoreBody StreamHeadRecord := do
  let head ← Body.selectForUpdate (fun db => (headOf db scope k).map (fun _ => headLock scope k))
    (fun db => headOf db scope k)
  match head with
  | some h => return h
  | none => Body.raise (.scopeNotFound (py "workspace stream heads have not been initialized"))

/-- `_advance_head`. -/
def advanceHead (head : StreamHeadRecord) (sequence : Int) (recordHash : PyStr) (at_ : Stamp) :
    StreamHeadRecord :=
  { head with lastSequence := sequence, lastHash := some recordHash, updatedAt := at_ }

/-! ## §2. Sealing a row. -/

variable (rt : Runtime)

/-- `_basis`. -/
def basis (schema : PyStr) (scope : Scope) (k : StreamKind) (sequence : Int)
    (previousHash : Option PyStr) (createdAt : Stamp) (data : List (PyStr × Json)) :
    Except Exn Json := do
  let createdAt ← isoformatZ createdAt
  return .dict [
    (py "schema", .str schema),
    (py "tenant_id", .str scope.tenantId.text),
    (py "workspace_id", .str scope.workspaceId.text),
    (py "stream_kind", .str k.value),
    (py "sequence", .int sequence),
    (py "previous_hash", Json.ofOption previousHash),
    (py "created_at", .str createdAt),
    (py "data", .dict data)]

/-- The columns every writer fills alike: `id`, the scope, the place in the
stream, the basis and its digest. -/
def AppendOnlyMixin.seal (id : PyStr) (schema : PyStr) (scope : Scope) (k : StreamKind)
    (sequence : Int) (previousHash : Option PyStr) (at_ : Stamp) (data : List (PyStr × Json)) :
    Except Exn AppendOnlyMixin := do
  let b ← basis schema scope k sequence previousHash at_ data
  let recordHash ← sha256Json rt b
  return {
    id := id
    tenantId := scope.tenantId.text
    workspaceId := scope.workspaceId.text
    sequence := sequence
    previousHash := previousHash
    recordHash := recordHash
    basisJson := b
    createdAt := at_ }

/-- Rows for one stream, and its head after them. -/
structure StreamAppend where
  rows : List Row
  head : StreamHeadRecord

/-- The INSERTs and the head UPDATE of one stream. -/
def StreamAppend.writes (a : StreamAppend) : List Write :=
  a.rows.map .addRow ++ [.updateHead a.head]

/-- The statements of a flush that appends to several streams. -/
def appendWrites (appends : List StreamAppend) : List Write := appends.flatMap StreamAppend.writes

/-! ## §3. Receipts and idempotency. -/

def receiptSchema : PyStr := py "szl.lyte.receipt/v1"
def idempotencySchema : PyStr := py "szl.lyte.idempotency-record/v1"
def memorySchema : PyStr := py "szl.lyte.memory-record/v2"
def anatomySchema : PyStr := py "szl.lyte.anatomy-trace/v1"
def operationalSchema : PyStr := py "szl.lyte.operational-record/v1"

/-- The `data` a receipt binds. -/
def receiptData (kind subjectType subjectId truthLabel : PyStr) (payload : Json)
    (payloadSha256 : PyStr) (evidenceRefs : Json) : List (PyStr × Json) := [
  (py "kind", .str kind),
  (py "subject_type", .str subjectType),
  (py "subject_id", .str subjectId),
  (py "truth_label", .str truthLabel),
  (py "payload", payload),
  (py "payload_sha256", .str payloadSha256),
  (py "evidence_refs", evidenceRefs)]

/-- The next receipt of a stream. -/
def receiptRow (id : PyStr) (scope : Scope) (draft : ReceiptDraft) (sequence : Int)
    (previousHash : Option PyStr) (at_ : Stamp) : Except Exn ReceiptRecord := do
  let payloadSha256 ← sha256Json rt draft.payload.json
  let m ← AppendOnlyMixin.seal rt id receiptSchema scope .receipts sequence previousHash at_
    (receiptData draft.kind draft.subjectType draft.subjectId draft.truthLabel.value
      draft.payload.json payloadSha256 (Json.strs draft.evidenceRefs))
  return {
    toAppendOnlyMixin := m
    kind := draft.kind
    subjectType := draft.subjectType
    subjectId := draft.subjectId
    truthLabel := draft.truthLabel.value
    payloadJson := draft.payload.json
    payloadSha256 := payloadSha256
    evidenceRefs := Json.strs draft.evidenceRefs }

/-- The `data` an idempotency record binds. -/
def idempotencyData (keyDigest requestDigest responseReceiptHash : PyStr) : List (PyStr × Json) := [
  (py "key_digest", .str keyDigest),
  (py "request_digest", .str requestDigest),
  (py "response_receipt_hash", .str responseReceiptHash)]

/-- The next idempotency record of a stream. -/
def idempotencyRow (id : PyStr) (scope : Scope) (keyDigest requestDigest responseReceiptHash : PyStr)
    (sequence : Int) (previousHash : Option PyStr) (at_ : Stamp) :
    Except Exn IdempotencyRecord := do
  let m ← AppendOnlyMixin.seal rt id idempotencySchema scope .idempotency sequence previousHash at_
    (idempotencyData keyDigest requestDigest responseReceiptHash)
  return {
    toAppendOnlyMixin := m
    keyDigest := keyDigest
    requestDigest := requestDigest
    responseReceiptHash := responseReceiptHash }

/-- `_idempotency_digest`. -/
def idempotencyDigest (scope : Scope) (key : PyStr) : Except Exn PyStr := do
  if key.length < 16 || 256 < key.length || isSpace key then
    throw (.valueError (py "idempotency key must contain 16-256 characters"))
  sha256Text rt (py "szl.lyte.idempotency/v1" ++ [0] ++ scope.tenantId.text ++ [0]
    ++ scope.workspaceId.text ++ [0] ++ key)

/-- `_receipt_request_digest`. -/
def receiptRequestDigest (draft : ReceiptDraft) : Except Exn PyStr :=
  sha256Json rt (.dict [
    (py "kind", .str draft.kind),
    (py "subject_type", .str draft.subjectType),
    (py "subject_id", .str draft.subjectId),
    (py "payload", draft.payload.json),
    (py "truth_label", .str draft.truthLabel.value),
    (py "evidence_refs", Json.strs draft.evidenceRefs)])

/-- The lookup of a key digest in the key table. -/
def findIdempotency (db : Db) (scope : Scope) (keyDigest : PyStr) : Option IdempotencyRecord :=
  db.idempotency.find? (fun r => r.inScope scope && r.keyDigest == keyDigest)

/-- The lookup of a receipt by its hash. -/
def findReceipt (db : Db) (scope : Scope) (recordHash : PyStr) : Option ReceiptRecord :=
  db.receipts.find? (fun r => r.inScope scope && r.recordHash == recordHash)

/-- `_resolve_idempotent_receipt`. -/
def resolveIdempotentReceipt (scope : Scope) (record : IdempotencyRecord)
    (requestDigest : PyStr) : StoreBody ReceiptRecord := do
  if record.requestDigest ≠ requestDigest then
    Body.raise (.idempotencyConflict
      (py "idempotency key was already used for a different request"))
  else
    let receipt ← Body.select (fun db => findReceipt db scope record.responseReceiptHash)
    match receipt with
    | some r => return r
    | none => Body.raise (.persistenceError (py "idempotency record references a missing receipt"))

/-- The part of `append_receipt` behind the key lookup. -/
def appendReceiptRows (sup : Supply) (scope : Scope) (draft : ReceiptDraft)
    (keyDigest : Option PyStr) (requestDigest : PyStr) (at_ : Stamp) :
    StoreBody ReceiptRecord := do
  let head ← lockedHead scope .receipts
  let receipt ← Body.ofExcept (receiptRow rt (sup.uuid 0) scope draft (head.lastSequence + 1)
    head.lastHash at_)
  let append := ⟨[.receipt receipt], advanceHead head receipt.sequence receipt.recordHash at_⟩
  match keyDigest with
  | none =>
      Body.flush (appendWrites [append])
      return receipt
  | some keyDigest =>
      -- `_append_idempotency`
      let head ← lockedHead scope .idempotency
      let row ← Body.ofExcept (idempotencyRow rt (sup.uuid 1) scope keyDigest requestDigest
        receipt.recordHash (head.lastSequence + 1) head.lastHash at_)
      Body.flush (appendWrites
        [append, ⟨[.idempotency row], advanceHead head row.sequence row.recordHash at_⟩])
      return receipt

/-- The transaction of `append_receipt`. -/
def appendReceiptBody (sup : Supply) (scope : Scope) (draft : ReceiptDraft)
    (keyDigest : Option PyStr) (requestDigest : PyStr) (at_ : Stamp) :
    StoreBody ReceiptRecord := do
  assertScope scope
  match keyDigest with
  | none => appendReceiptRows rt sup scope draft none requestDigest at_
  | some kd =>
      let existing ← Body.select (fun db => findIdempotency db scope kd)
      match existing with
      | some record => resolveIdempotentReceipt scope record requestDigest
      | none => appendReceiptRows rt sup scope draft (some kd) requestDigest at_

/-- The recovery lookup of `append_receipt`. -/
def recoverReceipt (scope : Scope) (keyDigest : Option PyStr) (requestDigest : PyStr) :
    StoreBody ReceiptRecord := do
  let conflict := Exn.persistenceError (py "receipt append conflicted with concurrent state")
  match keyDigest with
  | none => Body.raise conflict
  | some kd =>
      let existing ← Body.select (fun db => findIdempotency db scope kd)
      match existing with
      | some record => resolveIdempotentReceipt scope record requestDigest
      | none => Body.raise conflict

/-- `append_receipt`.  A digest is tested for truth, so an empty one counts as
no key. -/
def appendReceipt (sup : Supply) (scope : Scope) (draft : ReceiptDraft)
    (idempotencyKey : Option PyStr) (createdAt : Option Stamp) : StoreProg ReceiptRecord := do
  let at_ := createdAt.getD (sup.now 0).stamp
  let requestDigest ← Prog.ofExcept (receiptRequestDigest rt draft)
  let keyDigest ← Prog.ofExcept (idempotencyKey.mapM (idempotencyDigest rt scope))
  let keyDigest := keyDigest.filter (fun d => !d.isEmpty)
  (transaction (appendReceiptBody rt sup scope draft keyDigest requestDigest at_)).tryCatch
    (fun e =>
      if e.isIntegrityError then readSession (recoverReceipt scope keyDigest requestDigest)
      else .raise e)

/-! ## §4. Memory. -/

/-- `compatible_labels`. -/
def compatibleLabels : TruthLabel → List PyStr
  | .measured => [TruthLabel.measured.value]
  | .reported => [TruthLabel.measured.value, TruthLabel.reported.value]
  | .modeled =>
      [TruthLabel.measured.value, TruthLabel.reported.value, TruthLabel.modeled.value]
  | .sample => [TruthLabel.sample.value]
  | _ => []

/-- The `data` a memory record binds. -/
def memoryData (partitionDigest memoryKind summary truthLabel : PyStr)
    (evidenceRefs subjects metadata receiptHash : Json) : List (PyStr × Json) := [
  (py "partition_digest", .str partitionDigest),
  (py "memory_kind", .str memoryKind),
  (py "summary", .str summary),
  (py "truth_label", .str truthLabel),
  (py "evidence_refs", evidenceRefs),
  (py "subjects", subjects),
  (py "metadata", metadata),
  (py "receipt_hash", receiptHash)]

/-- The next memory record of a stream. -/
def memoryRow (id : PyStr) (scope : Scope) (draft : MemoryDraft) (partitionDigest : PyStr)
    (evidenceRefs : List PyStr) (receiptHash : PyStr) (sequence : Int)
    (previousHash : Option PyStr) (at_ : Stamp) : Except Exn MemoryRecord := do
  let m ← AppendOnlyMixin.seal rt id memorySchema scope .memory sequence previousHash at_
    (memoryData partitionDigest draft.kind.value draft.summary draft.truthLabel.value
      (Json.strs evidenceRefs) (Json.strs draft.subjects) (.dict draft.storedMetadata)
      (.str receiptHash))
  return {
    toAppendOnlyMixin := m
    scopeDigest := partitionDigest
    memoryKind := draft.kind.value
    summary := draft.summary
    truthLabel := draft.truthLabel.value
    evidenceRefs := Json.strs evidenceRefs
    subjects := Json.strs draft.subjects
    metadataJson := .dict draft.storedMetadata
    receiptHash := some receiptHash }

/-- The transaction of `append_memory`. -/
def appendMemoryBody (sup : Supply) (scope : Scope) (draft : MemoryDraft)
    (receiptHash partitionDigest : PyStr) (at_ : Stamp) : StoreBody MemoryRecord := do
  assertScope scope
  let evidence ← Body.select (fun db => findReceipt db scope receiptHash)
  match evidence with
  | none => Body.raise (.valueError (py "memory receipt_hash does not exist in this scope"))
  | some evidence =>
      if !(compatibleLabels draft.truthLabel).contains evidence.truthLabel then
        Body.raise (.valueError
          (py "memory truth_label is incompatible with its evidence receipt"))
      else if !draft.evidenceRefs.contains receiptHash then
        Body.raise (.valueError
          (py "memory evidence_refs must include its evidence receipt hash"))
      else
        let head ← lockedHead scope .memory
        let row ← Body.ofExcept (memoryRow rt (sup.uuid 0) scope draft partitionDigest
          draft.evidenceRefs receiptHash (head.lastSequence + 1) head.lastHash at_)
        Body.flush (appendWrites
          [⟨[.memory row], advanceHead head row.sequence row.recordHash at_⟩])
        return row

/-- `append_memory`. -/
def appendMemory (sup : Supply) (scope : Scope) (draft : MemoryDraft) (receiptHash : PyStr)
    (createdAt : Option Stamp) : StoreProg MemoryRecord := do
  let at_ := createdAt.getD (sup.now 0).stamp
  if !isSha256Hex receiptHash then
    Prog.raise (.valueError (py "receipt_hash must be a lowercase SHA-256 digest"))
  else
    let partitionDigest ← Prog.ofExcept (enterpriseMemoryPartition rt scope)
    transaction (appendMemoryBody rt sup scope draft receiptHash partitionDigest at_)

/-! ## §5. Anatomy traces. -/

/-- The next anatomy trace of a stream. -/
def anatomyRow (id : PyStr) (scope : Scope) (trace : AnatomyTrace) (sequence : Int)
    (previousHash : Option PyStr) (at_ : Stamp) : Except Exn AnatomyTraceRecord := do
  let data ← trace.toDict
  let m ← AppendOnlyMixin.seal rt id anatomySchema scope .anatomy sequence previousHash at_ data
  return {
    toAppendOnlyMixin := m
    traceId := trace.traceId.text
    spanId := trace.spanId.text
    parentSpanId := trace.parentSpanId.map Uuid.text
    organ := trace.organ.value
    operation := trace.operation
    state := trace.state.value
    truthLabel := trace.truthLabel.value
    startedAt := trace.startedAt
    completedAt := trace.completedAt
    inputSha256 := trace.inputSha256
    outputSha256 := trace.outputSha256
    attributesJson := trace.attributes.json }

/-- The transaction of `append_anatomy_trace`. -/
def appendAnatomyTraceBody (sup : Supply) (trace : AnatomyTrace) (at_ : Stamp) :
    StoreBody AnatomyTraceRecord := do
  assertScope trace.scope
  let head ← lockedHead trace.scope .anatomy
  let row ← Body.ofExcept (anatomyRow rt (sup.uuid 0) trace.scope trace (head.lastSequence + 1)
    head.lastHash at_)
  Body.flush (appendWrites [⟨[.anatomy row], advanceHead head row.sequence row.recordHash at_⟩])
  return row

/-- `append_anatomy_trace`. -/
def appendAnatomyTrace (sup : Supply) (trace : AnatomyTrace) (createdAt : Option Stamp) :
    StoreProg AnatomyTraceRecord :=
  transaction (appendAnatomyTraceBody rt sup trace (createdAt.getD (sup.now 0).stamp))

/-! ## §6. Operational records. -/

/-- The `data` an operational record binds. -/
def operationalData (entityKind entityId : PyStr) (version : Int) (name truthLabel : PyStr)
    (body evidenceRefs sourceRevision observedAt metadata : Json) : List (PyStr × Json) := [
  (py "entity_kind", .str entityKind),
  (py "entity_id", .str entityId),
  (py "version", .int version),
  (py "name", .str name),
  (py "truth_label", .str truthLabel),
  (py "body", body),
  (py "evidence_refs", evidenceRefs),
  (py "source_revision", sourceRevision),
  (py "observed_at", observedAt),
  (py "metadata", metadata)]

/-- The next operational record of a stream. -/
def operationalRow (id : PyStr) (scope : Scope) (draft : OperationalRecordDraft) (version : Int)
    (sequence : Int) (previousHash : Option PyStr) (at_ : Stamp) :
    Except Exn OperationalRecord := do
  let observedAt ← isoOrNull draft.observedAt
  let m ← AppendOnlyMixin.seal rt id operationalSchema scope .operational sequence previousHash at_
    (operationalData draft.entityKind.value draft.entityId version draft.name
      draft.truthLabel.value draft.body.json (Json.strs draft.evidenceRefs)
      (Json.ofOption draft.sourceRevision) observedAt draft.metadata.json)
  return {
    toAppendOnlyMixin := m
    entityKind := draft.entityKind.value
    entityId := draft.entityId
    version := version
    name := draft.name
    truthLabel := draft.truthLabel.value
    bodyJson := draft.body.json
    evidenceRefs := Json.strs draft.evidenceRefs
    sourceRevision := draft.sourceRevision
    observedAt := draft.observedAt
    metadataJson := draft.metadata.json }

/-- The versions of one entity. -/
def entityVersions (db : Db) (scope : Scope) (entityKind entityId : PyStr) :
    List OperationalRecord :=
  db.operational.filter (fun r =>
    r.inScope scope && r.entityKind == entityKind && r.entityId == entityId)

/-- `ORDER BY version DESC LIMIT 1`. -/
def latestVersion : List OperationalRecord → Option OperationalRecord
  | [] => none
  | r :: rs =>
      match latestVersion rs with
      | none => some r
      | some s => if s.version < r.version then some r else some s

/-- The latest version of one entity. -/
def latestOperational (db : Db) (scope : Scope) (entityKind entityId : PyStr) :
    Option OperationalRecord :=
  latestVersion (entityVersions db scope entityKind entityId)

/-- `latest.version if latest else 0`. -/
def currentVersion (latest : Option OperationalRecord) : Int :=
  match latest with
  | some r => r.version
  | none => 0

/-- The transaction of `_write_operational`. -/
def writeOperationalBody (sup : Supply) (scope : Scope) (draft : OperationalRecordDraft)
    (insertOnly : Bool) (expectedVersion : Option Int) (at_ : Stamp) :
    StoreBody OperationalRecord := do
  assertScope scope
  let latest ← Body.selectForUpdate
    (fun db => (latestOperational db scope draft.entityKind.value draft.entityId).map
      (fun r => .operational r.id))
    (fun db => latestOperational db scope draft.entityKind.value draft.entityId)
  if insertOnly && latest.isSome then
    Body.raise (.operationalConflict
      (py "operational entity already exists in this workspace"))
  else if expectedVersion.any (fun v => v != currentVersion latest) then
    Body.raise (.operationalConflict (py "expected version " ++
      decimalInt (expectedVersion.getD 0) ++ py ", current version is " ++
      decimalInt (currentVersion latest)))
  else
    let head ← lockedHead scope .operational
    let row ← Body.ofExcept (operationalRow rt (sup.uuid 0) scope draft (currentVersion latest + 1)
      (head.lastSequence + 1) head.lastHash at_)
    Body.flush (appendWrites
      [⟨[.operational row], advanceHead head row.sequence row.recordHash at_⟩])
    return row

/-- `_write_operational`. -/
def writeOperational (sup : Supply) (scope : Scope) (draft : OperationalRecordDraft)
    (insertOnly : Bool) (expectedVersion : Option Int) (createdAt : Option Stamp) :
    StoreProg OperationalRecord :=
  let at_ := createdAt.getD (sup.now 0).stamp
  (transaction (writeOperationalBody rt sup scope draft insertOnly expectedVersion at_)).tryCatch
    (fun e =>
      if e.isIntegrityError then
        .raise (.operationalConflict (py "operational append conflicted with concurrent state"))
      else .raise e)

/-- `insert_operational`. -/
def insertOperational (sup : Supply) (scope : Scope) (draft : OperationalRecordDraft)
    (createdAt : Option Stamp) : StoreProg OperationalRecord :=
  writeOperational rt sup scope draft true (some 0) createdAt

/-- `upsert_operational`. -/
def upsertOperational (sup : Supply) (scope : Scope) (draft : OperationalRecordDraft)
    (expectedVersion : Option Int) (createdAt : Option Stamp) : StoreProg OperationalRecord :=
  if expectedVersion.any (· < 0) then
    .raise (.valueError (py "expected_version must be a non-negative integer"))
  else writeOperational rt sup scope draft false expectedVersion createdAt

/-- A batch leaves an entity alone whose latest version says the same. -/
def unchanged (latest : OperationalRecord) (draft : OperationalRecordDraft) : Bool :=
  latest.bodyJson.pyEq draft.body.json && latest.truthLabel == draft.truthLabel.value &&
    latest.sourceRevision == draft.sourceRevision

/-- The loop of `upsert_operational_batch`: the head it has advanced so far and
the rows it has added to the session. -/
def batchLoop (sup : Supply) (scope : Scope) (at_ : Stamp) :
    List OperationalRecordDraft → StreamHeadRecord → List OperationalRecord →
      StoreBody (StreamHeadRecord × List OperationalRecord)
  | [], head, written => return (head, written)
  | draft :: drafts, head, written => do
      let latest ← Body.select
        (fun db => latestOperational db scope draft.entityKind.value draft.entityId)
      if latest.any (fun r => unchanged r draft) then
        batchLoop sup scope at_ drafts head written
      else
        let row ← Body.ofExcept (operationalRow rt (sup.uuid written.length) scope draft
          (currentVersion latest + 1) (head.lastSequence + 1) head.lastHash at_)
        batchLoop sup scope at_ drafts (advanceHead head row.sequence row.recordHash at_)
          (written ++ [row])

/-- The transaction of `upsert_operational_batch`. -/
def upsertOperationalBatchBody (sup : Supply) (scope : Scope)
    (drafts : List OperationalRecordDraft) (at_ : Stamp) :
    StoreBody (List OperationalRecord) := do
  assertScope scope
  let head ← lockedHead scope .operational
  let (head, written) ← batchLoop rt sup scope at_ drafts head []
  -- an unchanged head is not flushed
  if written.isEmpty then return []
  else
    Body.flush (appendWrites [⟨written.map .operational, head⟩])
    return written

/-- What a batch is told apart by. -/
def OperationalRecordDraft.identity (d : OperationalRecordDraft) : OperationalEntityKind × PyStr :=
  (d.entityKind, d.entityId)

/-- `upsert_operational_batch`. -/
def upsertOperationalBatch (sup : Supply) (scope : Scope) (drafts : List OperationalRecordDraft)
    (createdAt : Option Stamp) : StoreProg (List OperationalRecord) :=
  if ¬ (drafts.map OperationalRecordDraft.identity).Nodup then
    .raise (.valueError (py "operational batch contains duplicate entity identities"))
  else if drafts.isEmpty then .ret []
  else
    let at_ := createdAt.getD (sup.now 0).stamp
    (transaction (upsertOperationalBatchBody rt sup scope drafts at_)).tryCatch (fun e =>
      if e.isIntegrityError then
        .raise (.operationalConflict
          (py "operational batch append conflicted with concurrent state"))
      else .raise e)

/-- `get_operational`, of the latest version. -/
def getOperational (scope : Scope) (entityKind : OperationalEntityKind) (entityId : PyStr) :
    StoreProg (Option OperationalRecord) :=
  if (strip entityId).isEmpty then .raise (.valueError (py "entity_id is required"))
  else readSession do
    assertScope scope
    Body.select (fun db => latestOperational db scope entityKind.value entityId)

/-! ## §7. Chain verification. -/

structure ChainVerification where
  streamKind : PyStr
  valid : Bool
  recordCount : Nat
  headHash : Option PyStr
  error : Option PyStr

/-- `basis.get(key)`: only a dict has it. -/
def basisGet (b : Json) (key : PyStr) : Except Exn Json :=
  match b with
  | .dict fields => .ok (Json.get fields key)
  | _ => .error .attributeError

/-- The message of the first check that row `sequence` fails. -/
def rowError (scope : Scope) (k : StreamKind) (sequence : Nat) (previous : Option PyStr)
    (row : AppendOnlyMixin) : Except Exn (Option PyStr) := do
  if row.sequence ≠ sequence then
    return some (py "sequence gap at " ++ decimal sequence)
  if row.previousHash ≠ previous then
    return some (py "previous hash mismatch at " ++ decimal sequence)
  let tenantId ← basisGet row.basisJson (py "tenant_id")
  let workspaceId ← basisGet row.basisJson (py "workspace_id")
  let streamKind ← basisGet row.basisJson (py "stream_kind")
  let basisSequence ← basisGet row.basisJson (py "sequence")
  let previousHash ← basisGet row.basisJson (py "previous_hash")
  if !tenantId.pyEq (.str scope.tenantId.text) || !workspaceId.pyEq (.str scope.workspaceId.text) ||
      !streamKind.pyEq (.str k.value) || !basisSequence.pyEq (.int sequence) ||
      !previousHash.pyEq (Json.ofOption previous) then
    return some (py "basis mismatch at " ++ decimal sequence)
  let digest ← sha256Json rt row.basisJson
  if digest ≠ row.recordHash then
    return some (py "record digest mismatch at " ++ decimal sequence)
  return none

/-- The loop of `verify_chain`: the hash it expects next, and the error it
stopped at. -/
def verifyRows (scope : Scope) (k : StreamKind) :
    List Row → Nat → Option PyStr → Except Exn (Option PyStr × Option PyStr)
  | [], _, previous => return (previous, none)
  | row :: rows, sequence, previous => do
      match ← rowError rt scope k sequence previous row.mixin with
      | some message => return (previous, some message)
      | none => verifyRows scope k rows (sequence + 1) (some row.mixin.recordHash)

/-- `ORDER BY sequence`. -/
def bySequence (rows : List Row) : List Row :=
  rows.insertionSort (fun a b => a.mixin.sequence ≤ b.mixin.sequence)

/-- The end of `verify_chain`: a stream without errors, against its head. -/
def headVerification (k : StreamKind) (recordCount : Nat) (expectedPrevious : Option PyStr)
    (head : StreamHeadRecord) : ChainVerification :=
  if head.lastSequence ≠ recordCount ∨ head.lastHash ≠ expectedPrevious then
    ⟨k.value, false, recordCount, expectedPrevious,
      some (py "stream head does not match append-only records")⟩
  else ⟨k.value, true, recordCount, expectedPrevious, none⟩

/-- The session of `verify_chain`. -/
def verifyChainBody (scope : Scope) (k : StreamKind) : StoreBody ChainVerification := do
  assertScope scope
  let records ← Body.select (fun db => bySequence (db.stream scope k))
  let (expectedPrevious, error) ← Body.ofExcept (verifyRows rt scope k records 1 none)
  match error with
  | some message => return ⟨k.value, false, records.length, expectedPrevious, some message⟩
  | none =>
      let head ← lockedHead scope k
      return headVerification k records.length expectedPrevious head

/-- `verify_chain`, on one of the five streams. -/
def verifyChain (scope : Scope) (k : StreamKind) : StoreProg ChainVerification :=
  readSession (verifyChainBody rt scope k)

end Lyte
