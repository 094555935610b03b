import Lyte.Persistence.Provisioning

/-
  Lyte.Persistence.Preservation — the preservation auditor.

  `projection` rebuilds, from the columns of a stored row, the basis that its
  hash should have been taken of; `chains` walks all streams of all workspaces
  with it.  It reads the tables as they are stored: nothing here knows how the
  rows were written.
-/

namespace Lyte

open Transact

variable (rt : Runtime)

/-- `_timestamp`: a naive value is read as UTC. -/
def timestamp (value : Stamp) : Except Exn PyStr :=
  isoformatZ ⟨value.wall, some (value.offset.getD 0)⟩

/-- `_timestamp` of a nullable column. -/
def timestampOrNull : Option Stamp → Except Exn Json
  | none => .ok .null
  | some value => (timestamp value).map .str

/-- The `data` of a row, from its columns, and the schema of its table. -/
def projectedData : Row → Except Exn (PyStr × List (PyStr × Json))
  | .receipt r => do
      let digest ← sha256Json rt r.payloadJson
      if digest ≠ r.payloadSha256 then
        throw (.preservationError (py "PAYLOAD_DIGEST_MISMATCH"))
      return (receiptSchema, receiptData r.kind r.subjectType r.subjectId r.truthLabel
        r.payloadJson r.payloadSha256 r.evidenceRefs)
  | .idempotency r =>
      .ok (idempotencySchema, idempotencyData r.keyDigest r.requestDigest r.responseReceiptHash)
  | .memory r =>
      .ok (memorySchema, memoryData r.scopeDigest r.memoryKind r.summary r.truthLabel
        r.evidenceRefs r.subjects r.metadataJson (Json.ofOption r.receiptHash))
  | .anatomy r => do
      let startedAt ← timestamp r.startedAt
      let completedAt ← timestampOrNull r.completedAt
      return (anatomySchema, anatomyData r.tenantId r.workspaceId r.traceId r.spanId
        r.parentSpanId r.organ r.operation r.state r.truthLabel startedAt completedAt
        r.inputSha256 r.outputSha256 r.attributesJson)
  | .operational r => do
      let observedAt ← timestampOrNull r.observedAt
      return (operationalSchema, operationalData r.entityKind r.entityId r.version r.name
        r.truthLabel r.bodyJson r.evidenceRefs (Json.ofOption r.sourceRevision) observedAt
        r.metadataJson)

/-- `_projection`. -/
def projection (row : Row) : Except Exn Json := do
  let (schema, data) ← projectedData rt row
  let createdAt ← timestamp row.mixin.createdAt
  return .dict [
    (py "schema", .str schema),
    (py "tenant_id", .str row.mixin.tenantId),
    (py "workspace_id", .str row.mixin.workspaceId),
    (py "stream_kind", .str row.stream.value),
    (py "sequence", .int row.mixin.sequence),
    (py "previous_hash", Json.ofOption row.mixin.previousHash),
    (py "created_at", .str createdAt),
    (py "data", .dict data)]

/-- The scope of a row. -/
def Row.key (r : Row) : PyStr × PyStr := (r.mixin.tenantId, r.mixin.workspaceId)

/-- The condition under which `_chains` accepts the next row of a scope. -/
def rowAccepted (scopes : List (PyStr × PyStr)) (sequence : Int) (previous : Option PyStr)
    (row : Row) : Except Exn Bool := do
  if !scopes.contains row.key ||
      row.mixin.sequence != sequence + 1 || row.mixin.previousHash != previous then
    return false
  match row.mixin.basisJson with
  | .dict fields => do
      let expected ← projection rt row
      if !(Json.dict fields).pyEq expected then return false
      let digest ← sha256Json rt (.dict fields)
      return digest == row.mixin.recordHash
  | _ => return false

/-- `progress`: where each scope stands. -/
abbrev Progress := PyStr × PyStr → Int × Option PyStr

/-- The row loop of `_chains`. -/
def auditRows (scopes : List (PyStr × PyStr)) : List Row → Progress → Except Exn Progress
  | [], progress => return progress
  | row :: rows, progress => do
      let accepted ← rowAccepted rt scopes (progress row.key).1 (progress row.key).2 row
      if !accepted then throw (.preservationError (py "HASH_CHAIN_MISMATCH"))
      auditRows scopes rows (fun s =>
        if s = row.key then ((progress s).1 + 1, some row.mixin.recordHash) else progress s)

/-- `ORDER BY tenant_id, workspace_id, sequence`. -/
def auditLe (a b : Row) : Bool :=
  if a.mixin.tenantId ≠ b.mixin.tenantId then strLe a.mixin.tenantId b.mixin.tenantId
  else if a.mixin.workspaceId ≠ b.mixin.workspaceId then
    strLe a.mixin.workspaceId b.mixin.workspaceId
  else decide (a.mixin.sequence ≤ b.mixin.sequence)

def auditOrder (rows : List Row) : List Row := rows.insertionSort (fun a b => auditLe a b = true)

/-- The head of a scope stands where its rows end. -/
def auditHead (db : Db) (k : StreamKind) (progress : Progress) (scope : PyStr × PyStr) :
    Except Exn Unit :=
  match db.head? scope.1 scope.2 k.value with
  | none => throw (.preservationError (py "STREAM_HEAD_SET_MISMATCH"))
  | some head =>
      if progress scope ≠ (head.lastSequence, head.lastHash) then
        throw (.preservationError (py "STREAM_HEAD_MISMATCH"))
      else return ()

/-- The audit of one stream of all scopes. -/
def auditStream (db : Db) (scopes : List (PyStr × PyStr)) (k : StreamKind) : Except Exn Unit := do
  let progress ← auditRows rt scopes (auditOrder (db.rows k)) (fun _ => (0, none))
  scopes.forM (auditHead db k progress)

/-- The scopes of the workspace table. -/
def Db.scopes (db : Db) : List (PyStr × PyStr) := db.workspaces.map (fun w => (w.tenantId, w.id))

/-- The heads are those of the five streams of every workspace. -/
def headSetMatches (db : Db) : Bool :=
  db.heads.all (fun h => db.scopes.contains (h.tenantId, h.workspaceId) &&
    streamKinds.any (fun k => k.value == h.streamKind)) &&
  db.scopes.all (fun s => streamKinds.all (fun k => (db.head? s.1 s.2 k.value).isSome))

/-- `_chains`: the number of streams it has audited. -/
def chains (db : Db) : Except Exn Nat := do
  if !headSetMatches db then throw (.preservationError (py "STREAM_HEAD_SET_MISMATCH"))
  streamKinds.forM (fun k => auditStream rt db db.scopes k)
  return db.scopes.eraseDups.length * streamKinds.length

end Lyte
