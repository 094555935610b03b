import Lyte.Lib.Contract
import Lyte.Governance.SecondBrain
import Lyte.Domain.Operational

/-
  Lyte.Persistence.Models — the tables, and the database engine over them.

  Five append-only tables share the columns of `AppendOnlyMixin`; a `Row` is a
  row of any of them and its `stream` says of which.  Writing is one of five
  statements (`Write`), and `engine` says which of them the constraints refuse
  (unique keys, foreign keys) and what a DateTime column gives back after its
  commit: SQLite keeps the wall clock and drops the offset, PostgreSQL keeps the
  instant.
-/

namespace Lyte

open Transact

/-! ## §1. Streams. -/

/-- `STREAM_KINDS`. -/
inductive StreamKind where
  | receipts | idempotency | memory | anatomy | operational
deriving DecidableEq

def StreamKind.value : StreamKind → PyStr
  | .receipts => py "receipts"
  | .idempotency => py "idempotency"
  | .memory => py "memory"
  | .anatomy => py "anatomy"
  | .operational => py "operational"

def streamKinds : List StreamKind := [.receipts, .idempotency, .memory, .anatomy, .operational]

theorem StreamKind.value_inj {a b : StreamKind} (h : a.value = b.value) : a = b := by
  cases a <;> cases b <;> first | rfl | simp [StreamKind.value] at h

theorem mem_streamKinds (k : StreamKind) : k ∈ streamKinds := by cases k <;> decide

/-! ## §2. Rows. -/

structure TenantRecord where
  id : PyStr
  slug : PyStr
  name : PyStr
  createdAt : Stamp
deriving DecidableEq

structure WorkspaceRecord where
  id : PyStr
  tenantId : PyStr
  slug : PyStr
  name : PyStr
  createdAt : Stamp
deriving DecidableEq

structure StreamHeadRecord where
  tenantId : PyStr
  workspaceId : PyStr
  streamKind : PyStr
  lastSequence : Int
  lastHash : Option PyStr
  updatedAt : Stamp
deriving DecidableEq

structure AppendOnlyMixin where
  id : PyStr
  tenantId : PyStr
  workspaceId : PyStr
  sequence : Int
  previousHash : Option PyStr
  recordHash : PyStr
  basisJson : Json
  createdAt : Stamp

structure ReceiptRecord extends AppendOnlyMixin where
  kind : PyStr
  subjectType : PyStr
  subjectId : PyStr
  truthLabel : PyStr
  payloadJson : Json
  payloadSha256 : PyStr
  evidenceRefs : Json

structure IdempotencyRecord extends AppendOnlyMixin where
  keyDigest : PyStr
  requestDigest : PyStr
  responseReceiptHash : PyStr

structure MemoryRecord extends AppendOnlyMixin where
  scopeDigest : PyStr
  memoryKind : PyStr
  summary : PyStr
  truthLabel : PyStr
  evidenceRefs : Json
  subjects : Json
  metadataJson : Json
  receiptHash : Option PyStr

structure AnatomyTraceRecord extends AppendOnlyMixin where
  traceId : PyStr
  spanId : PyStr
  parentSpanId : Option PyStr
  organ : PyStr
  operation : PyStr
  state : PyStr
  truthLabel : PyStr
  startedAt : Stamp
  completedAt : Option Stamp
  inputSha256 : Option PyStr
  outputSha256 : Option PyStr
  attributesJson : Json

structure OperationalRecord extends AppendOnlyMixin where
  entityKind : PyStr
  entityId : PyStr
  version : Int
  name : PyStr
  truthLabel : PyStr
  bodyJson : Json
  evidenceRefs : Json
  sourceRevision : Option PyStr
  observedAt : Option Stamp
  metadataJson : Json

/-- A row of one of the append-only tables. -/
inductive Row where
  | receipt (r : ReceiptRecord)
  | idempotency (r : IdempotencyRecord)
  | memory (r : MemoryRecord)
  | anatomy (r : AnatomyTraceRecord)
  | operational (r : OperationalRecord)

namespace Row

def stream : Row → StreamKind
  | .receipt _ => .receipts
  | .idempotency _ => .idempotency
  | .memory _ => .memory
  | .anatomy _ => .anatomy
  | .operational _ => .operational

def mixin : Row → AppendOnlyMixin
  | .receipt r => r.toAppendOnlyMixin
  | .idempotency r => r.toAppendOnlyMixin
  | .memory r => r.toAppendOnlyMixin
  | .anatomy r => r.toAppendOnlyMixin
  | .operational r => r.toAppendOnlyMixin

@[simp] theorem stream_receipt (r : ReceiptRecord) : (Row.receipt r).stream = .receipts := rfl
@[simp] theorem stream_idempotency (r : IdempotencyRecord) :
    (Row.idempotency r).stream = .idempotency := rfl
@[simp] theorem stream_memory (r : MemoryRecord) : (Row.memory r).stream = .memory := rfl
@[simp] theorem stream_anatomy (r : AnatomyTraceRecord) : (Row.anatomy r).stream = .anatomy := rfl
@[simp] theorem stream_operational (r : OperationalRecord) :
    (Row.operational r).stream = .operational := rfl
@[simp] theorem mixin_receipt (r : ReceiptRecord) :
    (Row.receipt r).mixin = r.toAppendOnlyMixin := rfl
@[simp] theorem mixin_idempotency (r : IdempotencyRecord) :
    (Row.idempotency r).mixin = r.toAppendOnlyMixin := rfl
@[simp] theorem mixin_memory (r : MemoryRecord) :
    (Row.memory r).mixin = r.toAppendOnlyMixin := rfl
@[simp] theorem mixin_anatomy (r : AnatomyTraceRecord) :
    (Row.anatomy r).mixin = r.toAppendOnlyMixin := rfl
@[simp] theorem mixin_operational (r : OperationalRecord) :
    (Row.operational r).mixin = r.toAppendOnlyMixin := rfl

end Row

/-- The tables of the database. -/
structure Db where
  tenants : List TenantRecord
  workspaces : List WorkspaceRecord
  heads : List StreamHeadRecord
  receipts : List ReceiptRecord
  idempotency : List IdempotencyRecord
  memory : List MemoryRecord
  anatomy : List AnatomyTraceRecord
  operational : List OperationalRecord

namespace Db

/-- The rows of one append-only table. -/
def rows (db : Db) : StreamKind → List Row
  | .receipts => db.receipts.map .receipt
  | .idempotency => db.idempotency.map .idempotency
  | .memory => db.memory.map .memory
  | .anatomy => db.anatomy.map .anatomy
  | .operational => db.operational.map .operational

/-- A database right after its schema was created. -/
def empty : Db := ⟨[], [], [], [], [], [], [], []⟩

/-- The head of one stream. -/
def head? (db : Db) (tenantId workspaceId streamKind : PyStr) : Option StreamHeadRecord :=
  db.heads.find? (fun h =>
    h.tenantId == tenantId && h.workspaceId == workspaceId && h.streamKind == streamKind)

end Db

/-- `tenant_id == str(scope.tenant_id) and workspace_id == str(scope.workspace_id)`. -/
def AppendOnlyMixin.inScope (m : AppendOnlyMixin) (scope : Scope) : Bool :=
  m.tenantId == scope.tenantId.text && m.workspaceId == scope.workspaceId.text

/-- The rows of one stream of one workspace, in the order they were written. -/
def Db.stream (db : Db) (scope : Scope) (k : StreamKind) : List Row :=
  (db.rows k).filter (fun r => r.mixin.inScope scope)

/-! ## §3. Writes. -/

/-- The INSERT and UPDATE statements of the service. -/
inductive Write where
  | addTenant (r : TenantRecord)
  | addWorkspace (r : WorkspaceRecord)
  | addHead (h : StreamHeadRecord)
  | updateHead (h : StreamHeadRecord)
  | addRow (r : Row)

/-- The two names of a head row are the same row. -/
def StreamHeadRecord.sameKey (a b : StreamHeadRecord) : Bool :=
  a.tenantId == b.tenantId && a.workspaceId == b.workspaceId && a.streamKind == b.streamKind

def Db.addRow (db : Db) : Row → Db
  | .receipt r => { db with receipts := db.receipts ++ [r] }
  | .idempotency r => { db with idempotency := db.idempotency ++ [r] }
  | .memory r => { db with memory := db.memory ++ [r] }
  | .anatomy r => { db with anatomy := db.anatomy ++ [r] }
  | .operational r => { db with operational := db.operational ++ [r] }

def Db.write (db : Db) : Write → Db
  | .addTenant r => { db with tenants := db.tenants ++ [r] }
  | .addWorkspace r => { db with workspaces := db.workspaces ++ [r] }
  | .addHead h => { db with heads := db.heads ++ [h] }
  | .updateHead h => { db with heads := db.heads.map (fun x => if x.sameKey h then h else x) }
  | .addRow r => db.addRow r

/-- `create_engine(url).dialect`. -/
inductive Dialect where
  | sqlite | postgresql
deriving DecidableEq

/-- **What a DateTime column gives back.**  SQLite keeps the wall clock and
drops the offset; PostgreSQL keeps the instant (a naive value is one in UTC). -/
def Dialect.stamp : Dialect → Stamp → Stamp
  | .sqlite, s => ⟨s.wall, none⟩
  | .postgresql, s => ⟨s.wall - s.offset.getD 0, some 0⟩

def AppendOnlyMixin.stored (d : Dialect) (m : AppendOnlyMixin) : AppendOnlyMixin :=
  { m with createdAt := d.stamp m.createdAt }

def Row.stored (d : Dialect) : Row → Row
  | .receipt r => .receipt { r with createdAt := d.stamp r.createdAt }
  | .idempotency r => .idempotency { r with createdAt := d.stamp r.createdAt }
  | .memory r => .memory { r with createdAt := d.stamp r.createdAt }
  | .anatomy r => .anatomy { r with
      createdAt := d.stamp r.createdAt
      startedAt := d.stamp r.startedAt
      completedAt := r.completedAt.map d.stamp }
  | .operational r => .operational { r with
      createdAt := d.stamp r.createdAt
      observedAt := r.observedAt.map d.stamp }

def Write.stored (d : Dialect) : Write → Write
  | .addTenant r => .addTenant { r with createdAt := d.stamp r.createdAt }
  | .addWorkspace r => .addWorkspace { r with createdAt := d.stamp r.createdAt }
  | .addHead h => .addHead { h with updatedAt := d.stamp h.updatedAt }
  | .updateHead h => .updateHead { h with updatedAt := d.stamp h.updatedAt }
  | .addRow r => .addRow (r.stored d)

@[simp] theorem Row.stored_stream (d : Dialect) (r : Row) : (r.stored d).stream = r.stream := by
  cases r <;> rfl

@[simp] theorem Row.stored_mixin (d : Dialect) (r : Row) :
    (r.stored d).mixin = r.mixin.stored d := by
  cases r <;> rfl

/-! ## §4. Constraints. -/

/-- An entry of a unique index. -/
inductive Key where
  | tenantId (id : PyStr)
  | tenantSlug (slug : PyStr)
  | workspaceId (id : PyStr)
  | workspaceSlug (tenantId slug : PyStr)
  | head (tenantId workspaceId streamKind : PyStr)
  | rowId (k : StreamKind) (id : PyStr)
  | rowSequence (k : StreamKind) (tenantId workspaceId : PyStr) (sequence : Int)
  | rowHash (k : StreamKind) (tenantId workspaceId recordHash : PyStr)
  | idempotencyKey (tenantId workspaceId keyDigest : PyStr)
  | entityVersion (tenantId workspaceId entityKind entityId : PyStr) (version : Int)
deriving DecidableEq

def TenantRecord.keys (r : TenantRecord) : List Key := [.tenantId r.id, .tenantSlug r.slug]

def WorkspaceRecord.keys (r : WorkspaceRecord) : List Key :=
  [.workspaceId r.id, .workspaceSlug r.tenantId r.slug]

def StreamHeadRecord.keys (h : StreamHeadRecord) : List Key :=
  [.head h.tenantId h.workspaceId h.streamKind]

/-- The unique constraint a table has besides those of the mixin. -/
def Row.ownKeys : Row → List Key
  | .idempotency r => [.idempotencyKey r.tenantId r.workspaceId r.keyDigest]
  | .operational r => [.entityVersion r.tenantId r.workspaceId r.entityKind r.entityId r.version]
  | _ => []

def Row.keys (r : Row) : List Key :=
  [.rowId r.stream r.mixin.id,
    .rowSequence r.stream r.mixin.tenantId r.mixin.workspaceId r.mixin.sequence,
    .rowHash r.stream r.mixin.tenantId r.mixin.workspaceId r.mixin.recordHash] ++ r.ownKeys

/-- The index entries a statement adds. -/
def Write.keys : Write → List Key
  | .addTenant r => r.keys
  | .addWorkspace r => r.keys
  | .addHead h => h.keys
  | .updateHead _ => []
  | .addRow r => r.keys

/-- All index entries. -/
def Db.keys (db : Db) : List Key :=
  db.tenants.flatMap TenantRecord.keys ++ db.workspaces.flatMap WorkspaceRecord.keys ++
    db.heads.flatMap StreamHeadRecord.keys ++
    streamKinds.flatMap (fun k => (db.rows k).flatMap Row.keys)

/-- The foreign keys of a statement point to rows. -/
def Db.foreignKeys (db : Db) : Write → Bool
  | .addWorkspace r => db.tenants.any (fun t => t.id == r.tenantId)
  | .addHead h => db.workspaces.any (fun w => w.tenantId == h.tenantId && w.id == h.workspaceId)
  | .addRow r => db.workspaces.any (fun w =>
      w.tenantId == r.mixin.tenantId && w.id == r.mixin.workspaceId)
  | _ => true

/-- The database engine. -/
def engine (d : Dialect) : Engine Db Write Exn where
  write := Db.write
  stored := Write.stored d
  rejects db w := w.keys.any (fun k => decide (k ∈ db.keys)) || !db.foreignKeys w
  integrity := .integrityError

@[simp] theorem engine_write (d : Dialect) : (engine d).write = Db.write := rfl
@[simp] theorem engine_stored (d : Dialect) : (engine d).stored = Write.stored d := rfl
@[simp] theorem engine_integrity (d : Dialect) : (engine d).integrity = .integrityError := rfl

/-- A row another transaction may have locked. -/
inductive RowLock where
  | tenant (id : PyStr)
  | workspace (id : PyStr)
  | head (tenantId workspaceId streamKind : PyStr)
  | operational (id : PyStr)
deriving DecidableEq

/-- A stream is only written under the lock of its head. -/
def Write.guard : Write → Option RowLock
  | .updateHead h => some (.head h.tenantId h.workspaceId h.streamKind)
  | .addRow r => some (.head r.mixin.tenantId r.mixin.workspaceId r.stream.value)
  | _ => none

def index : Index Db Write RowLock Key where
  keys := Write.keys
  used db k := k ∈ db.keys
  guard := Write.guard

@[simp] theorem index_keys : index.keys = Write.keys := rfl
@[simp] theorem index_guard : index.guard = Write.guard := rfl
@[simp] theorem index_used (db : Db) (k : Key) : index.used db k ↔ k ∈ db.keys := Iff.rfl

/-! ## §5. What a write changes. -/

@[simp] theorem rows_addRow (db : Db) (r : Row) (k : StreamKind) :
    (db.addRow r).rows k = db.rows k ++ if r.stream = k then [r] else [] := by
  cases r <;> cases k <;> simp [Db.addRow, Db.rows]

@[simp] theorem rows_addTenant (db : Db) (r : TenantRecord) (k : StreamKind) :
    (db.write (.addTenant r)).rows k = db.rows k := by cases k <;> rfl
@[simp] theorem rows_addWorkspace (db : Db) (r : WorkspaceRecord) (k : StreamKind) :
    (db.write (.addWorkspace r)).rows k = db.rows k := by cases k <;> rfl
@[simp] theorem rows_addHead (db : Db) (h : StreamHeadRecord) (k : StreamKind) :
    (db.write (.addHead h)).rows k = db.rows k := by cases k <;> rfl
@[simp] theorem rows_updateHead (db : Db) (h : StreamHeadRecord) (k : StreamKind) :
    (db.write (.updateHead h)).rows k = db.rows k := by cases k <;> rfl
@[simp] theorem write_addRow (db : Db) (r : Row) : db.write (.addRow r) = db.addRow r := rfl

@[simp] theorem tenants_addRow (db : Db) (r : Row) : (db.addRow r).tenants = db.tenants := by
  cases r <;> rfl
@[simp] theorem workspaces_addRow (db : Db) (r : Row) :
    (db.addRow r).workspaces = db.workspaces := by
  cases r <;> rfl
@[simp] theorem heads_addRow (db : Db) (r : Row) : (db.addRow r).heads = db.heads := by
  cases r <;> rfl

theorem sameKey_keys {a b : StreamHeadRecord} (h : a.sameKey b = true) : a.keys = b.keys := by
  simp only [StreamHeadRecord.sameKey, Bool.and_eq_true, beq_iff_eq] at h
  simp [StreamHeadRecord.keys, h.1.1, h.1.2, h.2]

/-- Moving a head keeps the index of the heads. -/
theorem flatMap_keys_updateHead (heads : List StreamHeadRecord) (h : StreamHeadRecord) :
    (heads.map (fun x => if x.sameKey h then h else x)).flatMap StreamHeadRecord.keys
      = heads.flatMap StreamHeadRecord.keys := by
  induction heads with
  | nil => rfl
  | cons x xs ih =>
    simp only [List.map_cons, List.flatMap_cons, ih]
    by_cases hx : x.sameKey h = true
    · rw [if_pos hx, sameKey_keys hx]
    · rw [if_neg hx]

theorem mem_keys_addRow (db : Db) (r : Row) (k : Key) :
    k ∈ (db.addRow r).keys ↔ k ∈ db.keys ∨ k ∈ r.keys := by
  have hrows : (∃ s ∈ streamKinds, ∃ x ∈ (db.addRow r).rows s, k ∈ x.keys) ↔
      (∃ s ∈ streamKinds, ∃ x ∈ db.rows s, k ∈ x.keys) ∨ k ∈ r.keys := by
    simp only [rows_addRow, List.mem_append]
    constructor
    · rintro ⟨s, hs, x, hx | hx, hk⟩
      · exact .inl ⟨s, hs, x, hx, hk⟩
      · split at hx
        · rw [List.mem_singleton.mp hx] at hk
          exact .inr hk
        · cases hx
    · rintro (⟨s, hs, x, hx, hk⟩ | hk)
      · exact ⟨s, hs, x, .inl hx, hk⟩
      · exact ⟨r.stream, mem_streamKinds _, r, .inr (by simp), hk⟩
  simp only [Db.keys, List.mem_append, tenants_addRow, workspaces_addRow, heads_addRow,
    List.mem_flatMap (l := streamKinds), List.mem_flatMap (l := Db.rows _ _), hrows]
  simp only [or_assoc]

/-- **The index describes the engine.** -/
theorem index_lawful (d : Dialect) : index.Lawful (engine d) where
  used_write db w k := by
    cases w with
    | addRow r => exact mem_keys_addRow db r k
    | addTenant r =>
      simp only [index_used, engine_write, Db.keys, rows_addTenant, index_keys, Write.keys]
      simp only [Db.write, List.flatMap_append, List.flatMap_cons, List.flatMap_nil, List.append_nil,
        List.mem_append]
      grind
    | addWorkspace r =>
      simp only [index_used, engine_write, Db.keys, rows_addWorkspace, index_keys, Write.keys]
      simp only [Db.write, List.flatMap_append, List.flatMap_cons, List.flatMap_nil, List.append_nil,
        List.mem_append]
      grind
    | addHead h =>
      simp only [index_used, engine_write, Db.keys, rows_addHead, index_keys, Write.keys]
      simp only [Db.write, List.flatMap_append, List.flatMap_cons, List.flatMap_nil, List.append_nil,
        List.mem_append]
      grind
    | updateHead h =>
      simp only [index_used, engine_write, Db.keys, rows_updateHead, index_keys, Write.keys]
      simp [Db.write, flatMap_keys_updateHead]
  keys_stored w := by
    cases w with
    | addRow r => cases r <;> rfl
    | _ => rfl
  rejects_used db w k hk hu := by
    simp only [engine, Bool.or_eq_true, List.any_eq_true, decide_eq_true_eq]
    exact .inl ⟨k, hk, hu⟩

end Lyte
