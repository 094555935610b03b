import Lyte.Persistence.Preservation
import Lyte.Domain.RoundTrip

/-
  Lyte.Persistence.Restore — importing a snapshot into an empty target.

  `summarize` reduces a database to a row count and a digest for each table,
  and has its chains audited; `restore` copies the rows of a snapshot inside of
  one transaction of the target, compares the two summaries before the commit,
  and once more on a new connection behind it.  What it has done to the target
  it says in a receipt: the `effect` of a step is decided by what has happened
  to the transaction, not by the exception.

      Connection   what a connection shows of a database
      summarize    the digests of its tables
      runRestore   the three phases: qualify, import, read back
      restore      the receipts around them

  What the two engines do is not code of the service: a `RestoreEnv` holds what
  the snapshot file holds, what the target makes of an INSERT, how the commit
  ends, and which step raises.
-/

namespace Lyte

variable (rt : Runtime)

/-! ## §1. Rows as dicts. -/

/-- What a column reads as: a value, or a nullable DateTime. -/
inductive Cell where
  | value (v : Json)
  | instant (s : Option Stamp)

/-- `dict(row)`. -/
abbrev TableRow := List (PyStr × Cell)

/-- A row of any of the tables. -/
inductive Entry where
  | tenant (r : TenantRecord)
  | workspace (r : WorkspaceRecord)
  | head (r : StreamHeadRecord)
  | row (r : Row)

/-- `Base.metadata.tables`. -/
inductive TableName where
  | tenants | workspaces | streamHeads
  | stream (k : StreamKind)
deriving DecidableEq

def TableName.name : TableName → PyStr
  | .tenants => py "lyte_tenants"
  | .workspaces => py "lyte_workspaces"
  | .streamHeads => py "lyte_stream_heads"
  | .stream .receipts => py "lyte_receipts"
  | .stream .idempotency => py "lyte_idempotency_records"
  | .stream .memory => py "lyte_memory_records"
  | .stream .anatomy => py "lyte_anatomy_traces"
  | .stream .operational => py "lyte_operational_records"

/-- `Base.metadata.sorted_tables`: a table comes after those that its foreign keys name,
and otherwise they are in the order of their names. -/
def sortedTables : List TableName :=
  [.tenants, .workspaces, .stream .anatomy, .stream .idempotency, .stream .memory,
    .stream .operational, .stream .receipts, .streamHeads]

theorem mem_sortedTables (t : TableName) : t ∈ sortedTables := by
  cases t with
  | stream k => cases k <;> decide
  | _ => decide

/-- The rows of one table. -/
def Db.entries (db : Db) : TableName → List Entry
  | .tenants => db.tenants.map .tenant
  | .workspaces => db.workspaces.map .workspace
  | .streamHeads => db.heads.map .head
  | .stream k => (db.rows k).map .row

def Entry.table : Entry → TableName
  | .tenant _ => .tenants
  | .workspace _ => .workspaces
  | .head _ => .streamHeads
  | .row r => .stream r.stream

def strCell (s : PyStr) : Cell := .value (.str s)
def textCell (s : Option PyStr) : Cell := .value (Json.ofOption s)

/-- The columns of `AppendOnlyMixin`. -/
def AppendOnlyMixin.columns (m : AppendOnlyMixin) : TableRow :=
  [(py "id", strCell m.id),
    (py "tenant_id", strCell m.tenantId),
    (py "workspace_id", strCell m.workspaceId),
    (py "sequence", .value (.int m.sequence)),
    (py "previous_hash", textCell m.previousHash),
    (py "record_hash", strCell m.recordHash),
    (py "basis_json", .value m.basisJson),
    (py "created_at", .instant (some m.createdAt))]

/-- The columns a table has besides those of the mixin. -/
def Row.ownColumns : Row → TableRow
  | .receipt r =>
      [(py "kind", strCell r.kind),
        (py "subject_type", strCell r.subjectType),
        (py "subject_id", strCell r.subjectId),
        (py "truth_label", strCell r.truthLabel),
        (py "payload_json", .value r.payloadJson),
        (py "payload_sha256", strCell r.payloadSha256),
        (py "evidence_refs", .value r.evidenceRefs)]
  | .idempotency r =>
      [(py "key_digest", strCell r.keyDigest),
        (py "request_digest", strCell r.requestDigest),
        (py "response_receipt_hash", strCell r.responseReceiptHash)]
  | .memory r =>
      [(py "scope_digest", strCell r.scopeDigest),
        (py "memory_kind", strCell r.memoryKind),
        (py "summary", strCell r.summary),
        (py "truth_label", strCell r.truthLabel),
        (py "evidence_refs", .value r.evidenceRefs),
        (py "subjects", .value r.subjects),
        (py "metadata_json", .value r.metadataJson),
        (py "receipt_hash", textCell r.receiptHash)]
  | .anatomy r =>
      [(py "trace_id", strCell r.traceId),
        (py "span_id", strCell r.spanId),
        (py "parent_span_id", textCell r.parentSpanId),
        (py "organ", strCell r.organ),
        (py "operation", strCell r.operation),
        (py "state", strCell r.state),
        (py "truth_label", strCell r.truthLabel),
        (py "started_at", .instant (some r.startedAt)),
        (py "completed_at", .instant r.completedAt),
        (py "input_sha256", textCell r.inputSha256),
        (py "output_sha256", textCell r.outputSha256),
        (py "attributes_json", .value r.attributesJson)]
  | .operational r =>
      [(py "entity_kind", strCell r.entityKind),
        (py "entity_id", strCell r.entityId),
        (py "version", .value (.int r.version)),
        (py "name", strCell r.name),
        (py "truth_label", strCell r.truthLabel),
        (py "body_json", .value r.bodyJson),
        (py "evidence_refs", .value r.evidenceRefs),
        (py "source_revision", textCell r.sourceRevision),
        (py "observed_at", .instant r.observedAt),
        (py "metadata_json", .value r.metadataJson)]

/-- `dict(row)`: all columns of the table. -/
def Entry.columns : Entry → TableRow
  | .tenant r =>
      [(py "id", strCell r.id), (py "slug", strCell r.slug), (py "name", strCell r.name),
        (py "created_at", .instant (some r.createdAt))]
  | .workspace r =>
      [(py "id", strCell r.id), (py "tenant_id", strCell r.tenantId),
        (py "slug", strCell r.slug), (py "name", strCell r.name),
        (py "created_at", .instant (some r.createdAt))]
  | .head r =>
      [(py "tenant_id", strCell r.tenantId), (py "workspace_id", strCell r.workspaceId),
        (py "stream_kind", strCell r.streamKind),
        (py "last_sequence", .value (.int r.lastSequence)),
        (py "last_hash", textCell r.lastHash),
        (py "updated_at", .instant (some r.updatedAt))]
  | .row r => r.mixin.columns ++ r.ownColumns

/-- `set(table.c.keys())`. -/
def mixinColumnNames : List PyStr :=
  [py "id", py "tenant_id", py "workspace_id", py "sequence", py "previous_hash",
    py "record_hash", py "basis_json", py "created_at"]

def TableName.columnNames : TableName → List PyStr
  | .tenants => [py "id", py "slug", py "name", py "created_at"]
  | .workspaces => [py "id", py "tenant_id", py "slug", py "name", py "created_at"]
  | .streamHeads => [py "tenant_id", py "workspace_id", py "stream_kind", py "last_sequence",
      py "last_hash", py "updated_at"]
  | .stream .receipts => mixinColumnNames ++ [py "kind", py "subject_type", py "subject_id",
      py "truth_label", py "payload_json", py "payload_sha256", py "evidence_refs"]
  | .stream .idempotency => mixinColumnNames ++ [py "key_digest", py "request_digest",
      py "response_receipt_hash"]
  | .stream .memory => mixinColumnNames ++ [py "scope_digest", py "memory_kind", py "summary",
      py "truth_label", py "evidence_refs", py "subjects", py "metadata_json", py "receipt_hash"]
  | .stream .anatomy => mixinColumnNames ++ [py "trace_id", py "span_id", py "parent_span_id",
      py "organ", py "operation", py "state", py "truth_label", py "started_at",
      py "completed_at", py "input_sha256", py "output_sha256", py "attributes_json"]
  | .stream .operational => mixinColumnNames ++ [py "entity_kind", py "entity_id", py "version",
      py "name", py "truth_label", py "body_json", py "evidence_refs", py "source_revision",
      py "observed_at", py "metadata_json"]

theorem columns_names (e : Entry) : e.columns.map Prod.fst = e.table.columnNames := by
  cases e with
  | row r => cases r <;> rfl
  | _ => rfl

/-- `_normalize` of a DateTime: its instant in UTC.  A naive value is read as UTC, and
`astimezone` overflows where the instant has no UTC datetime. -/
def normalizeInstant (s : Stamp) : Except Exn PyStr :=
  let micros := s.wall - s.offset.getD 0
  if 0 ≤ micros ∧ micros ≤ maxMicros then .ok ((isoText micros).dropLast ++ py "+00:00")
  else .error .overflowError

/-- `_normalize` of a column. -/
def Cell.normalize : Cell → Except Exn Json
  | .value v => .ok v
  | .instant none => .ok .null
  | .instant (some s) => (normalizeInstant s).map .str

/-- `_normalize(dict(row))`. -/
def normalizeFields : TableRow → Except Exn (List (PyStr × Json))
  | [] => .ok []
  | (name, cell) :: columns => do
      let v ← cell.normalize
      let fields ← normalizeFields columns
      return (name, v) :: fields

/-- `canonical`: a line of ASCII JSON. -/
def canonicalLine (v : Json) : Except Exn (List UInt8) := do
  let text ← asciiJson rt v
  match utf8Encode (text ++ [10]) with
  | some bytes => return bytes
  | none => throw .unicodeEncodeError

/-- The line of a row. -/
def rowLine (e : Entry) : Except Exn (List UInt8) := do
  let fields ← normalizeFields e.columns
  canonicalLine rt (.dict fields)

/-! ## §2. What a connection shows. -/

/-- What `inspect(connection)` and the two PRAGMAs say. -/
structure Catalog where
  dialect : Dialect
  tableNames : List PyStr
  viewNames : List PyStr
  columnNames : TableName → List PyStr
  revisions : List PyStr
  integrityCheck : List PyStr
  foreignKeyViolation : Bool

/-- `EXPECTED_SCHEMA_REVISIONS`. -/
def expectedRevisions : List PyStr := [py "20260904_0001"]

/-- Equality of two sets given as lists. -/
def sameSet (xs ys : List PyStr) : Bool := xs.all ys.contains && ys.all xs.contains

/-- `_schema`. -/
def checkSchema (c : Catalog) (requireMigration : Bool) : Except Exn Unit := do
  let alembic := py "alembic_version"
  if !sameSet (c.tableNames.filter (· ≠ alembic)) (sortedTables.map TableName.name) then
    throw (.preservationError (py "SCHEMA_TABLE_SET_MISMATCH"))
  if !c.viewNames.isEmpty then throw (.preservationError (py "SCHEMA_VIEWS_UNSUPPORTED"))
  if !sortedTables.all (fun t => sameSet (c.columnNames t) t.columnNames) then
    throw (.preservationError (py "SCHEMA_COLUMN_SET_MISMATCH"))
  let versioned := c.tableNames.contains alembic
  if versioned && c.revisions != expectedRevisions then
    throw (.preservationError (py "ALEMBIC_REVISION_MISMATCH"))
  if requireMigration && !versioned then
    throw (.preservationError (py "ALEMBIC_REVISION_REQUIRED"))

/-- The two PRAGMAs of `summarize`. -/
def checkIntegrity (c : Catalog) : Except Exn Unit := do
  if c.dialect == .sqlite && c.integrityCheck != [py "ok"] then
    throw (.preservationError (py "SQLITE_INTEGRITY_FAILED"))
  if c.dialect == .sqlite && c.foreignKeyViolation then
    throw (.preservationError (py "FOREIGN_KEY_CHECK_FAILED"))

/-- The strings a driver returns, of text or of a JSON document: code points, with no high
surrogate directly before a low one, since a decoder joins such a pair. -/
def joined : PyStr → Bool
  | [] => true
  | [c] => decide (c ≤ 0x10FFFF)
  | c :: d :: rest =>
      decide (c ≤ 0x10FFFF) && !(isHighSurrogate c && isLowSurrogate d) && joined (d :: rest)

/-- What a driver can return for a column. -/
def Cell.Loaded : Cell → Prop
  | .value v => v.nodupKeys = true ∧ v.allStrings joined = true
  | .instant _ => True

/-- **What a connection shows of a database**: its rows, and for each table those rows in
the order of the primary key (which the collation decides). -/
structure Connection where
  rows : Db
  listed : TableName → List Entry
  listed_perm : ∀ t, (listed t).Perm (rows.entries t)
  loaded : ∀ t, ∀ e ∈ listed t, ∀ p ∈ e.columns, p.2.Loaded
  catalog : Catalog
  /-- `_target_identity`. -/
  identity : Except Exn PyStr

/-- An entry of `summary["tables"]`. -/
structure TableSummary where
  name : PyStr
  rows : Nat
  sha256 : PyStr
deriving DecidableEq

/-- What `summarize` returns. -/
structure Summary where
  tables : List TableSummary
  logicalSha256 : PyStr
  verifiedStreams : Nat
deriving DecidableEq

def TableSummary.json (s : TableSummary) : Json :=
  .dict [(py "rows", .int s.rows), (py "sha256", .str s.sha256)]

def Summary.json (s : Summary) : Json :=
  .dict [(py "tables", .dict (s.tables.map (fun t => (t.name, t.json)))),
    (py "logical_sha256", .str s.logicalSha256),
    (py "verified_streams", .int s.verifiedStreams)]

/-- The row loop of `summarize` over one table. -/
def summarizeTable (c : Connection) (t : TableName) : Except Exn TableSummary := do
  let lines ← (c.listed t).mapM (rowLine rt)
  return ⟨t.name, lines.length, rt.sha256 lines.flatten⟩

/-- `summarize`. -/
def summarize (c : Connection) (requireMigration : Bool) : Except Exn Summary := do
  checkSchema c.catalog requireMigration
  checkIntegrity c.catalog
  let tables ← sortedTables.mapM (summarizeTable rt c)
  let logical ← canonicalLine rt (.dict (tables.map (fun t => (t.name, t.json))))
  let verified ← chains rt c.rows
  return ⟨tables, rt.sha256 logical, verified⟩

/-! ## §3. The environment of a restore. -/

/-- The places at which a restore can raise besides its own checks. -/
inductive RestoreStep where
  | makeOutput
  | receipt (name : PyStr)
  | inspectSnapshot | freezeInput | hashInput | openSnapshot | readSnapshot
  | openTarget | begin | settings | lockTables | readTarget
  | insert (t : TableName) (batch : Nat)
  | readImported | rollback | closeTarget
  | reopenTarget | readOnly | reread | closeReread | closeSnapshot
  | dispose
deriving DecidableEq

/-- **How a commit ends.** -/
inductive CommitOutcome where
  | returned
  | raised (e : Exn) (tookEffect : Bool)

/-- What a restore meets outside of its code. -/
structure RestoreEnv where
  /-- No `-wal` or `-journal` file lies beside the snapshot. -/
  standalone : Bool
  /-- The bytes the copy loop reads. -/
  snapshot : List UInt8
  /-- SQLite, on a file. -/
  openSnapshot : List UInt8 → Connection
  /-- The target under its locks. -/
  target : Connection
  /-- What the target makes of one batch of INSERTs. -/
  insert : Connection → List Entry → Except Exn Connection
  commit : CommitOutcome
  /-- What the connection behind the commit shows; the locks are gone by then. -/
  reread : Connection
  /-- The step raises. -/
  raises : RestoreStep → Option Exn
  /-- A receipt file is there although writing it has raised. -/
  leaves : PyStr → Bool
  /-- `type(exc).__name__`. -/
  className : Exn → PyStr
  observedAt : PyStr
  toolSha256 : PyStr
  directoryFsync : PyStr

namespace RestoreEnv

variable (env : RestoreEnv)

def step (s : RestoreStep) : Except Exn Unit :=
  match env.raises s with
  | some e => .error e
  | none => .ok ()

/-- `_error_code`. -/
def errorCode : Exn → PyStr
  | .preservationError code => code
  | e => env.className e

end RestoreEnv

/-! ## §4. The restore. -/

/-- The effect a restore records. -/
inductive RestoreEffect where
  | notCommitted | commitOutcomeUnknown | committed
deriving DecidableEq

def RestoreEffect.text : RestoreEffect → PyStr
  | .notCommitted => py "NOT_COMMITTED"
  | .commitOutcomeUnknown => py "COMMIT_OUTCOME_UNKNOWN"
  | .committed => py "COMMITTED"

section Phases

variable (env : RestoreEnv) (expectedSha256 targetIdentity : PyStr)

/-- The frozen copy of the snapshot, and its summary. -/
def qualify : Except Exn (Connection × Summary) := do
  env.step .inspectSnapshot
  if !env.standalone then throw (.preservationError (py "STANDALONE_SNAPSHOT_REQUIRED"))
  env.step .freezeInput
  env.step .hashInput
  if rt.sha256 env.snapshot ≠ expectedSha256 then
    throw (.preservationError (py "SNAPSHOT_DIGEST_MISMATCH"))
  env.step .openSnapshot
  let source := env.openSnapshot env.snapshot
  env.step .readSnapshot
  let expected ← summarize rt source false
  return (source, expected)

/-- The batches of one table, `rows.partitions(500)`. -/
def insertBatches (t : TableName) : Nat → List (List Entry) → Connection → Except Exn Connection
  | _, [], target => .ok target
  | n, batch :: batches, target => do
      env.step (.insert t n)
      let target ← env.insert target batch
      insertBatches t (n + 1) batches target

/-- `_copy_rows`. -/
def copyRows (source : Connection) : List TableName → Connection → Except Exn Connection
  | [], target => .ok target
  | t :: tables, target => do
      let target ← insertBatches env t 0 ((source.listed t).toChunks 500) target
      copyRows source tables target

/-- The transaction up to its commit: what the target shows inside of it then. -/
def importRows (source : Connection) (expected : Summary) : Except Exn Connection := do
  env.step .openTarget
  env.step .begin
  env.step .settings
  let identity ← env.target.identity
  if identity ≠ targetIdentity then throw (.preservationError (py "TARGET_IDENTITY_MISMATCH"))
  env.step .lockTables
  env.step .readTarget
  let before ← summarize rt env.target true
  if before.tables.any (fun t => t.rows != 0) then
    throw (.preservationError (py "TARGET_NOT_EMPTY"))
  let imported ← copyRows env source sortedTables env.target
  env.step .readImported
  let after ← summarize rt imported true
  if after ≠ expected then throw (.preservationError (py "TRANSACTION_READBACK_MISMATCH"))
  return imported

/-- `if transaction.is_active: transaction.rollback()`, which may itself raise. -/
def afterRollback (e : Exn) : Exn := (env.raises .rollback).getD e

/-- The read-back on a new connection. -/
def readBack (expected : Summary) : Except Exn Summary := do
  env.step .closeTarget
  env.step .reopenTarget
  env.step .readOnly
  let identity ← env.reread.identity
  if identity ≠ targetIdentity then
    throw (.preservationError (py "POST_COMMIT_TARGET_IDENTITY_MISMATCH"))
  env.step .reread
  let after ← summarize rt env.reread true
  if after ≠ expected then throw (.preservationError (py "POST_COMMIT_READBACK_MISMATCH"))
  env.step .closeReread
  env.step .closeSnapshot
  return expected

/-- What a run has done to the target, and how it ended. -/
structure RestoreRun where
  effect : RestoreEffect
  target : Db
  result : Except Exn Summary

/-- **The run**: rows that were inserted count from the commit on. -/
def runRestore : RestoreRun :=
  match qualify rt env expectedSha256 with
  | .error e => ⟨.notCommitted, env.target.rows, .error e⟩
  | .ok (source, expected) =>
      match importRows rt env targetIdentity source expected with
      | .error e => ⟨.notCommitted, env.target.rows, .error (afterRollback env e)⟩
      | .ok imported =>
          match env.commit with
          | .raised e true =>
              ⟨.commitOutcomeUnknown, imported.rows, .error (afterRollback env e)⟩
          | .raised e false =>
              ⟨.commitOutcomeUnknown, env.target.rows, .error (afterRollback env e)⟩
          | .returned => ⟨.committed, imported.rows, readBack rt env targetIdentity expected⟩

/-- A file of the output directory. -/
abbrev ReceiptFile := PyStr × List (PyStr × Json)

/-- `_receipt`: the file, if it came to be, and the digest of its bytes. -/
def writeReceipt (name : PyStr) (body : List (PyStr × Json)) :
    List ReceiptFile × Except Exn PyStr :=
  let full := [
    (py "schema", .str (py "szl.lyte.preservation/v1")),
    (py "observed_at", .str env.observedAt),
    (py "tool_sha256", .str env.toolSha256),
    (py "signed", .bool false),
    (py "signature_status", .str (py "UNAVAILABLE")),
    (py "cutover_authorized", .bool false),
    (py "directory_fsync", .str env.directoryFsync)] ++ body
  match canonicalLine rt (.dict full) with
  | .error e => ([], .error e)
  | .ok bytes =>
      match env.raises (.receipt name) with
      | some e => (if env.leaves name then [(name, full)] else [], .error e)
      | none => ([(name, full)], .ok (rt.sha256 bytes))

/-- What is left of a restore. -/
structure RestoreOutcome where
  /-- The committed rows of the target. -/
  target : Db
  files : List ReceiptFile
  result : Except Exn (List (PyStr × Json))

def intentBody : List (PyStr × Json) := [
  (py "operation", .str (py "restore")),
  (py "truth_label", .str (py "DECLARED")),
  (py "snapshot_sha256", .str expectedSha256),
  (py "target_identity_sha256", .str targetIdentity)]

def resultBody (effect : RestoreEffect) (summary : Summary) (intent : PyStr) :
    List (PyStr × Json) := [
  (py "operation", .str (py "restore")),
  (py "truth_label", .str (py "MEASURED")),
  (py "effect", .str effect.text),
  (py "snapshot_sha256", .str expectedSha256),
  (py "target_identity_sha256", .str targetIdentity),
  (py "summary", summary.json),
  (py "previous_receipt_sha256", .str intent)]

def failureBody (effect : RestoreEffect) (e : Exn) (intent : PyStr) : List (PyStr × Json) := [
  (py "operation", .str (py "restore")),
  (py "truth_label", .str (py "BLOCKED")),
  (py "effect", .str effect.text),
  (py "error_code", .str (env.errorCode e)),
  (py "previous_receipt_sha256", .str intent)]

/-- `except Exception`: the failure is recorded and raised again. -/
def recordFailure (run : RestoreRun) (files : List ReceiptFile) (e : Exn) (intent : PyStr) :
    RestoreOutcome :=
  match writeReceipt rt env (py "failure.json") (failureBody env run.effect e intent) with
  | (written, .error e') => ⟨run.target, files ++ written, .error e'⟩
  | (written, .ok _) => ⟨run.target, files ++ written, .error e⟩

/-- The receipt of a run. -/
def recordRun (run : RestoreRun) (files : List ReceiptFile) (intent : PyStr) : RestoreOutcome :=
  match run.result with
  | .error e => recordFailure rt env run files e intent
  | .ok summary =>
      let body := resultBody expectedSha256 targetIdentity run.effect summary intent
      match writeReceipt rt env (py "result.json") body with
      | (written, .error e) => recordFailure rt env run (files ++ written) e intent
      | (written, .ok _) => ⟨run.target, files ++ written, .ok body⟩

/-- `finally`: an engine that cannot be disposed of replaces the result. -/
def disposed (o : RestoreOutcome) : RestoreOutcome :=
  match env.raises .dispose with
  | some e => { o with result := .error e }
  | none => o

/-- `restore`. -/
def restore : RestoreOutcome :=
  if !(isSha256Hex expectedSha256 && isSha256Hex targetIdentity) then
    ⟨env.target.rows, [], .error (.preservationError (py "EXACT_DIGEST_REQUIRED"))⟩
  else
    match env.raises .makeOutput with
    | some e => ⟨env.target.rows, [], .error e⟩
    | none =>
        match writeReceipt rt env (py "intent.json") (intentBody expectedSha256 targetIdentity) with
        | (files, .error e) => ⟨env.target.rows, files, .error e⟩
        | (files, .ok intent) =>
            disposed env (recordRun rt env expectedSha256 targetIdentity
              (runRestore rt env expectedSha256 targetIdentity) files intent)

end Phases

end Lyte
