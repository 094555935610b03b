import Lyte.Lib.HashChain
import Lyte.Persistence.Frame

/-
  Lyte.Persistence.Sealed — what the row constructors guarantee.

  `Sealed rt scope k m`: the digest of `m` is that of its stored basis, and the
  basis names the scope, the stream, the sequence and the previous hash of `m`.
  Every row constructor of the store is an application of
  `AppendOnlyMixin.seal`, and the lemmas of this file say with which data.
-/

namespace Lyte

open Transact HashChain

/-! ## §1. Sealed rows. -/

/-- The basis of a row, as a dict. -/
def basisDict (schema tenantId workspaceId streamKind : PyStr) (sequence : Int)
    (previousHash : Option PyStr) (createdAt : PyStr) (data : List (PyStr × Json)) : Json := .dict [
  (py "schema", .str schema),
  (py "tenant_id", .str tenantId),
  (py "workspace_id", .str workspaceId),
  (py "stream_kind", .str streamKind),
  (py "sequence", .int sequence),
  (py "previous_hash", Json.ofOption previousHash),
  (py "created_at", .str createdAt),
  (py "data", .dict data)]

/-- The entries of a basis that are looked at. -/
theorem get_basisDict (schema tenantId workspaceId streamKind : PyStr) (sequence : Int)
    (previousHash : Option PyStr) (createdAt : PyStr) (data : List (PyStr × Json)) :
    ∃ fields, basisDict schema tenantId workspaceId streamKind sequence previousHash createdAt data
        = .dict fields ∧
      Json.get fields (py "tenant_id") = .str tenantId ∧
      Json.get fields (py "workspace_id") = .str workspaceId ∧
      Json.get fields (py "stream_kind") = .str streamKind ∧
      Json.get fields (py "sequence") = .int sequence ∧
      Json.get fields (py "previous_hash") = Json.ofOption previousHash ∧
      Json.get fields (py "data") = .dict data :=
  ⟨_, rfl, rfl, rfl, rfl, rfl, rfl, rfl⟩

/-- How a stream reads its rows. -/
def rowLinks : Links AppendOnlyMixin PyStr where
  index m := m.sequence
  prev m := m.previousHash
  digest m := m.recordHash

@[simp] theorem rowLinks_index (m : AppendOnlyMixin) : rowLinks.index m = m.sequence := rfl
@[simp] theorem rowLinks_prev (m : AppendOnlyMixin) : rowLinks.prev m = m.previousHash := rfl
@[simp] theorem rowLinks_digest (m : AppendOnlyMixin) : rowLinks.digest m = m.recordHash := rfl

variable (rt : Runtime)

/-- **A row that its digest binds.** -/
structure Sealed (scope : Scope) (k : StreamKind) (m : AppendOnlyMixin) : Prop where
  tenant : m.tenantId = scope.tenantId.text
  workspace : m.workspaceId = scope.workspaceId.text
  digest : sha256Json rt m.basisJson = .ok m.recordHash
  binds : ∃ schema createdAt data, m.basisJson = basisDict schema scope.tenantId.text
    scope.workspaceId.text k.value m.sequence m.previousHash createdAt data

variable {rt}

theorem Sealed.inScope {scope : Scope} {k : StreamKind} {m : AppendOnlyMixin}
    (h : Sealed rt scope k m) : m.inScope scope = true := by
  simp [AppendOnlyMixin.inScope, h.tenant, h.workspace]

/-- What a column type does to a timestamp does not touch the seal. -/
theorem Sealed.stored {scope : Scope} {k : StreamKind} {m : AppendOnlyMixin} (d : Dialect)
    (h : Sealed rt scope k m) : Sealed rt scope k (m.stored d) :=
  ⟨h.tenant, h.workspace, h.digest, h.binds⟩

theorem basis_ok {schema : PyStr} {scope : Scope} {k : StreamKind} {sequence : Int}
    {previousHash : Option PyStr} {at_ : Stamp} {data : List (PyStr × Json)} {b : Json}
    (h : basis schema scope k sequence previousHash at_ data = .ok b) :
    ∃ text, isoformatZ at_ = .ok text ∧ b = basisDict schema scope.tenantId.text
      scope.workspaceId.text k.value sequence previousHash text data := by
  obtain ⟨text, ht, hb⟩ := ok_of_bind h
  cases hb
  exact ⟨text, ht, rfl⟩

/-- **What `seal` returns.** -/
theorem seal_ok {id schema : PyStr} {scope : Scope} {k : StreamKind} {sequence : Int}
    {previousHash : Option PyStr} {at_ : Stamp} {data : List (PyStr × Json)} {m : AppendOnlyMixin}
    (h : AppendOnlyMixin.seal rt id schema scope k sequence previousHash at_ data = .ok m) :
    ∃ text, isoformatZ at_ = .ok text ∧
      m.basisJson = basisDict schema scope.tenantId.text scope.workspaceId.text k.value sequence
        previousHash text data ∧
      sha256Json rt m.basisJson = .ok m.recordHash ∧
      m = { m with
        id := id, tenantId := scope.tenantId.text, workspaceId := scope.workspaceId.text,
        sequence := sequence, previousHash := previousHash, createdAt := at_ } := by
  obtain ⟨b, hb, h⟩ := ok_of_bind h
  obtain ⟨hash, hh, h⟩ := ok_of_bind h
  obtain ⟨text, ht, rfl⟩ := basis_ok hb
  cases h
  exact ⟨text, ht, rfl, hh, rfl⟩

/-- A row that `seal` made is sealed, at its place. -/
theorem sealed_of_seal {id schema : PyStr} {scope : Scope} {k : StreamKind} {sequence : Int}
    {previousHash : Option PyStr} {at_ : Stamp} {data : List (PyStr × Json)} {m : AppendOnlyMixin}
    (h : AppendOnlyMixin.seal rt id schema scope k sequence previousHash at_ data = .ok m) :
    m.sequence = sequence ∧ m.previousHash = previousHash ∧ m.createdAt = at_ ∧ m.id = id ∧
      Sealed rt scope k m := by
  obtain ⟨text, _, hb, hd, hm⟩ := seal_ok h
  rw [hm]
  exact ⟨rfl, rfl, rfl, rfl, rfl, rfl, hd, schema, text, data, hb⟩

/-! ## §2. The row constructors. -/

section Rows

variable {id : PyStr} {scope : Scope} {sequence : Int} {previousHash : Option PyStr} {at_ : Stamp}

theorem receiptRow_ok {draft : ReceiptDraft} {r : ReceiptRecord}
    (h : receiptRow rt id scope draft sequence previousHash at_ = .ok r) :
    ∃ digest m, sha256Json rt draft.payload.json = .ok digest ∧
      AppendOnlyMixin.seal rt id receiptSchema scope .receipts sequence previousHash at_
        (receiptData draft.kind draft.subjectType draft.subjectId draft.truthLabel.value
          draft.payload.json digest (Json.strs draft.evidenceRefs)) = .ok m ∧
      r = ⟨m, draft.kind, draft.subjectType, draft.subjectId, draft.truthLabel.value,
        draft.payload.json, digest, Json.strs draft.evidenceRefs⟩ := by
  obtain ⟨digest, hd, h⟩ := ok_of_bind h
  obtain ⟨m, hm, h⟩ := ok_of_bind h
  cases h
  exact ⟨digest, m, hd, hm, rfl⟩

theorem idempotencyRow_ok {keyDigest requestDigest receiptHash : PyStr} {r : IdempotencyRecord}
    (h : idempotencyRow rt id scope keyDigest requestDigest receiptHash sequence previousHash at_
      = .ok r) :
    ∃ m, AppendOnlyMixin.seal rt id idempotencySchema scope .idempotency sequence previousHash at_
        (idempotencyData keyDigest requestDigest receiptHash) = .ok m ∧
      r = ⟨m, keyDigest, requestDigest, receiptHash⟩ := by
  obtain ⟨m, hm, h⟩ := ok_of_bind h
  cases h
  exact ⟨m, hm, rfl⟩

theorem memoryRow_ok {draft : MemoryDraft} {partitionDigest receiptHash : PyStr}
    {evidenceRefs : List PyStr} {r : MemoryRecord}
    (h : memoryRow rt id scope draft partitionDigest evidenceRefs receiptHash sequence previousHash
      at_ = .ok r) :
    ∃ m, AppendOnlyMixin.seal rt id memorySchema scope .memory sequence previousHash at_
        (memoryData partitionDigest draft.kind.value draft.summary draft.truthLabel.value
          (Json.strs evidenceRefs) (Json.strs draft.subjects) (.dict draft.storedMetadata)
          (.str receiptHash)) = .ok m ∧
      r = ⟨m, partitionDigest, draft.kind.value, draft.summary, draft.truthLabel.value,
        Json.strs evidenceRefs, Json.strs draft.subjects, .dict draft.storedMetadata,
        some receiptHash⟩ := by
  obtain ⟨m, hm, h⟩ := ok_of_bind h
  cases h
  exact ⟨m, hm, rfl⟩

theorem anatomyRow_ok {trace : AnatomyTrace} {r : AnatomyTraceRecord}
    (h : anatomyRow rt id scope trace sequence previousHash at_ = .ok r) :
    ∃ data m, trace.toDict = .ok data ∧
      AppendOnlyMixin.seal rt id anatomySchema scope .anatomy sequence previousHash at_ data
        = .ok m ∧
      r = ⟨m, trace.traceId.text, trace.spanId.text, trace.parentSpanId.map Uuid.text,
        trace.organ.value, trace.operation, trace.state.value, trace.truthLabel.value,
        trace.startedAt, trace.completedAt, trace.inputSha256, trace.outputSha256,
        trace.attributes.json⟩ := by
  obtain ⟨data, hd, h⟩ := ok_of_bind h
  obtain ⟨m, hm, h⟩ := ok_of_bind h
  cases h
  exact ⟨data, m, hd, hm, rfl⟩

theorem operationalRow_ok {draft : OperationalRecordDraft} {version : Int} {r : OperationalRecord}
    (h : operationalRow rt id scope draft version sequence previousHash at_ = .ok r) :
    ∃ observedAt m, isoOrNull draft.observedAt = .ok observedAt ∧
      AppendOnlyMixin.seal rt id operationalSchema scope .operational sequence previousHash at_
        (operationalData draft.entityKind.value draft.entityId version draft.name
          draft.truthLabel.value draft.body.json (Json.strs draft.evidenceRefs)
          (Json.ofOption draft.sourceRevision) observedAt draft.metadata.json) = .ok m ∧
      r = ⟨m, draft.entityKind.value, draft.entityId, version, draft.name, draft.truthLabel.value,
        draft.body.json, Json.strs draft.evidenceRefs, draft.sourceRevision, draft.observedAt,
        draft.metadata.json⟩ := by
  obtain ⟨observedAt, ho, h⟩ := ok_of_bind h
  obtain ⟨m, hm, h⟩ := ok_of_bind h
  cases h
  exact ⟨observedAt, m, ho, hm, rfl⟩

theorem provisioningRow_ok {tenantSpec : TenantSpec} {workspaceSpec : WorkspaceSpec}
    {r : ReceiptRecord}
    (h : provisioningRow rt id scope tenantSpec workspaceSpec sequence previousHash at_ = .ok r) :
    ∃ digest m, sha256Json rt (provisioningPayload tenantSpec workspaceSpec) = .ok digest ∧
      AppendOnlyMixin.seal rt id receiptSchema scope .receipts sequence previousHash at_
        (receiptData provisionedKind (py "workspace") workspaceSpec.id.text (py "MEASURED")
          (provisioningPayload tenantSpec workspaceSpec) digest (.list [])) = .ok m ∧
      r = ⟨m, provisionedKind, py "workspace", workspaceSpec.id.text, py "MEASURED",
        provisioningPayload tenantSpec workspaceSpec, digest, .list []⟩ := by
  obtain ⟨digest, hd, h⟩ := ok_of_bind h
  obtain ⟨m, hm, h⟩ := ok_of_bind h
  cases h
  exact ⟨digest, m, hd, hm, rfl⟩

/-- What the chain needs to know of a sealed row. -/
structure SealedAt (rt : Runtime) (scope : Scope) (k : StreamKind) (sequence : Int)
    (previousHash : Option PyStr) (at_ : Stamp) (m : AppendOnlyMixin) : Prop where
  sequence : m.sequence = sequence
  previousHash : m.previousHash = previousHash
  createdAt : m.createdAt = at_
  sealed : Sealed rt scope k m

theorem sealedAt_of_seal {schema : PyStr} {k : StreamKind} {data : List (PyStr × Json)}
    {m : AppendOnlyMixin}
    (h : AppendOnlyMixin.seal rt id schema scope k sequence previousHash at_ data = .ok m) :
    SealedAt rt scope k sequence previousHash at_ m := by
  obtain ⟨hs, hp, hc, _, hseal⟩ := sealed_of_seal h
  exact ⟨hs, hp, hc, hseal⟩

theorem receiptRow_sealed {draft : ReceiptDraft} {r : ReceiptRecord}
    (h : receiptRow rt id scope draft sequence previousHash at_ = .ok r) :
    SealedAt rt scope .receipts sequence previousHash at_ r.toAppendOnlyMixin := by
  obtain ⟨_, m, _, hm, rfl⟩ := receiptRow_ok h
  exact sealedAt_of_seal hm

theorem idempotencyRow_sealed {keyDigest requestDigest receiptHash : PyStr}
    {r : IdempotencyRecord}
    (h : idempotencyRow rt id scope keyDigest requestDigest receiptHash sequence previousHash at_
      = .ok r) : SealedAt rt scope .idempotency sequence previousHash at_ r.toAppendOnlyMixin := by
  obtain ⟨m, hm, rfl⟩ := idempotencyRow_ok h
  exact sealedAt_of_seal hm

theorem memoryRow_sealed {draft : MemoryDraft} {partitionDigest receiptHash : PyStr}
    {evidenceRefs : List PyStr} {r : MemoryRecord}
    (h : memoryRow rt id scope draft partitionDigest evidenceRefs receiptHash sequence previousHash
      at_ = .ok r) : SealedAt rt scope .memory sequence previousHash at_ r.toAppendOnlyMixin := by
  obtain ⟨m, hm, rfl⟩ := memoryRow_ok h
  exact sealedAt_of_seal hm

theorem anatomyRow_sealed {trace : AnatomyTrace} {r : AnatomyTraceRecord}
    (h : anatomyRow rt id scope trace sequence previousHash at_ = .ok r) :
    SealedAt rt scope .anatomy sequence previousHash at_ r.toAppendOnlyMixin := by
  obtain ⟨_, m, _, hm, rfl⟩ := anatomyRow_ok h
  exact sealedAt_of_seal hm

theorem operationalRow_sealed {draft : OperationalRecordDraft} {version : Int}
    {r : OperationalRecord}
    (h : operationalRow rt id scope draft version sequence previousHash at_ = .ok r) :
    SealedAt rt scope .operational sequence previousHash at_ r.toAppendOnlyMixin := by
  obtain ⟨_, m, _, hm, rfl⟩ := operationalRow_ok h
  exact sealedAt_of_seal hm

theorem provisioningRow_sealed {tenantSpec : TenantSpec} {workspaceSpec : WorkspaceSpec}
    {r : ReceiptRecord}
    (h : provisioningRow rt id scope tenantSpec workspaceSpec sequence previousHash at_ = .ok r) :
    SealedAt rt scope .receipts sequence previousHash at_ r.toAppendOnlyMixin := by
  obtain ⟨_, m, _, hm, rfl⟩ := provisioningRow_ok h
  exact sealedAt_of_seal hm

end Rows

/-- The loop of a bundle seals one trace behind the other. -/
theorem traceRows_sealed {sup : Supply} {scope : Scope} {at_ : Stamp} {traces : List AnatomyTrace}
    {i : Nat} {n : Int} {p : Option PyStr} {rows : List AnatomyTraceRecord}
    (h : traceRows rt sup scope at_ traces i (n + 1) p = .ok rows) :
    Chained rowLinks (Sealed rt scope .anatomy) n p
        (rows.map AnatomyTraceRecord.toAppendOnlyMixin) ∧
      rows.length = traces.length := by
  induction traces generalizing i n p rows with
  | nil => cases h; exact ⟨trivial, rfl⟩
  | cons trace traces ih =>
    obtain ⟨row, hrow, h⟩ := ok_of_bind h
    obtain ⟨rest, hrest, h⟩ := ok_of_bind h
    cases h
    have hs := anatomyRow_sealed hrow
    obtain ⟨hchain, hlen⟩ := ih hrest
    exact ⟨⟨hs.sequence, hs.previousHash, hs.sealed, hchain⟩, by simp [hlen]⟩

end Lyte
