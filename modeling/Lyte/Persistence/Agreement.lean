import Lyte.Persistence.Preservation
import Lyte.Persistence.Verify

/-
  Lyte.Persistence.Agreement — rows that are read back as they were written.

  The writers put UTC text into a basis and the datetime itself into a column;
  the preservation auditor rebuilds the text from what the column gives back.
  The two agree where the datetime survives its column (`Survives`): always on
  PostgreSQL, and on SQLite where its offset is zero.  `StoreCall.Commits.faithful`
  says so of all rows that a call can commit.
-/

namespace Lyte

open Transact HashChain

variable {rt : Runtime} {d : Dialect}

/-! ## §1. Timestamps. -/

/-- A datetime that its column gives back as the same instant. -/
def Survives (d : Dialect) (s : Stamp) : Prop := d = .postgresql ∨ s.offset = some 0

theorem survives_instant (t : Instant) : Survives d t.stamp := .inr rfl

/-- **The auditor reads the text that the writer wrote.** -/
theorem timestamp_stored {s : Stamp} {text : PyStr} (hs : Survives d s)
    (h : isoformatZ s = .ok text) : timestamp (d.stamp s) = .ok text := by
  obtain ⟨wall, offset⟩ := s
  cases offset with
  | none => cases h
  | some o =>
    cases d with
    | postgresql =>
      unfold timestamp Dialect.stamp
      rw [← h]
      simp [isoformatZ]
    | sqlite =>
      rcases hs with hs | hs
      · cases hs
      · cases hs
        exact h

theorem isoOrNull_some {s : Stamp} {v : Json} (h : isoOrNull (some s) = .ok v) :
    ∃ text, isoformatZ s = .ok text ∧ v = .str text := by
  change (isoformatZ s).map Json.str = .ok v at h
  cases hi : isoformatZ s with
  | error e =>
    rw [hi] at h
    cases h
  | ok text =>
    rw [hi] at h
    cases h
    exact ⟨text, rfl, rfl⟩

theorem timestampOrNull_stored {s : Option Stamp} {v : Json}
    (hs : ∀ x, s = some x → Survives d x) (h : isoOrNull s = .ok v) :
    timestampOrNull (s.map d.stamp) = .ok v := by
  cases s with
  | none => exact h
  | some s =>
    obtain ⟨text, hi, rfl⟩ := isoOrNull_some h
    rw [Option.map_some, timestampOrNull, timestamp_stored (hs s rfl) hi]
    rfl

/-! ## §2. Rows. -/

/-- **The auditor projects a stored row to its own basis.** -/
structure Faithful (rt : Runtime) (row : Row) : Prop where
  projects : projection rt row = .ok row.mixin.basisJson
  nodup : row.mixin.basisJson.nodupKeys = true

theorem nodupKeys_ofOption (o : Option PyStr) : (Json.ofOption o).nodupKeys = true := by
  cases o <;> rfl

theorem nodupKeys_isoOrNull {s : Option Stamp} {v : Json} (h : isoOrNull s = .ok v) :
    v.nodupKeys = true := by
  cases s with
  | none => cases h; rfl
  | some s =>
    obtain ⟨text, _, rfl⟩ := isoOrNull_some h
    rfl

theorem nodupKeys_dict {fields : List (PyStr × Json)} (hk : (fields.map Prod.fst).Nodup)
    (hv : ∀ p ∈ fields, p.2.nodupKeys = true) : (Json.dict fields).nodupKeys = true := by
  have hvalues : Json.nodupKeysFields fields = true := by
    induction fields with
    | nil => rfl
    | cons p fields ih =>
      obtain ⟨k, v⟩ := p
      rw [Json.nodupKeysFields, hv (k, v) List.mem_cons_self,
        ih (List.nodup_cons.mp hk).2 (fun q hq => hv q (List.mem_cons_of_mem _ hq))]
      rfl
  rw [Json.nodupKeys, hvalues, decide_eq_true hk]
  rfl

theorem nodupKeys_str (s : PyStr) : (Json.str s).nodupKeys = true := rfl
theorem nodupKeys_int (n : Int) : (Json.int n).nodupKeys = true := rfl

theorem nodupKeys_basisDict {schema tenantId workspaceId streamKind : PyStr} {sequence : Int}
    {previousHash : Option PyStr} {createdAt : PyStr} {data : List (PyStr × Json)}
    (h : (Json.dict data).nodupKeys = true) :
    (basisDict schema tenantId workspaceId streamKind sequence previousHash createdAt
      data).nodupKeys = true := by
  refine nodupKeys_dict (by simp) ?_
  simp [nodupKeys_ofOption, nodupKeys_str, nodupKeys_int, h]

/-- What the projection of a row consists of. -/
theorem projection_ok {row : Row} {schema createdAt : PyStr} {data : List (PyStr × Json)}
    (hd : projectedData rt row = .ok (schema, data))
    (ht : timestamp row.mixin.createdAt = .ok createdAt) :
    projection rt row = .ok (basisDict schema row.mixin.tenantId row.mixin.workspaceId
      row.stream.value row.mixin.sequence row.mixin.previousHash createdAt data) := by
  unfold projection
  rw [hd]
  show (do let c ← timestamp row.mixin.createdAt; _) = _
  rw [ht]
  rfl

/-- A sealed row whose columns project to the data it was sealed with. -/
theorem faithful_of_seal {id schema : PyStr} {scope : Scope} {k : StreamKind} {sequence : Int}
    {previousHash : Option PyStr} {at_ : Stamp} {data : List (PyStr × Json)} {m : AppendOnlyMixin}
    {row : Row}
    (h : AppendOnlyMixin.seal rt id schema scope k sequence previousHash at_ data = .ok m)
    (hat : Survives d at_) (hmixin : row.mixin = m) (hk : row.stream = k)
    (hdata : projectedData rt (row.stored d) = .ok (schema, data))
    (hnd : (Json.dict data).nodupKeys = true) : Faithful rt (row.stored d) := by
  obtain ⟨text, hiso, hb, _, hm⟩ := seal_ok h
  have hcreated : (row.stored d).mixin.createdAt = d.stamp at_ := by
    rw [Row.stored_mixin, hmixin, hm]
    rfl
  have hbasis : (row.stored d).mixin.basisJson = m.basisJson := by
    rw [Row.stored_mixin, hmixin]
    rfl
  refine ⟨?_, ?_⟩
  · rw [projection_ok hdata (by rw [hcreated]; exact timestamp_stored hat hiso), hbasis, hb,
      Row.stored_mixin, Row.stored_stream, hmixin, hk, hm]
    rfl
  · rw [hbasis, hb]
    exact nodupKeys_basisDict hnd

section Rows

variable {id : PyStr} {scope : Scope} {sequence : Int} {previousHash : Option PyStr} {at_ : Stamp}

theorem nodupKeys_receiptData {kind subjectType subjectId truthLabel payloadSha256 : PyStr}
    {payload refs : Json} (hp : payload.nodupKeys = true) (hr : refs.nodupKeys = true) :
    (Json.dict (receiptData kind subjectType subjectId truthLabel payload payloadSha256
      refs)).nodupKeys = true := by
  refine nodupKeys_dict (by simp [receiptData]) ?_
  simp [receiptData, nodupKeys_str, hp, hr]

theorem receiptRow_faithful {draft : ReceiptDraft} {r : ReceiptRecord} (hat : Survives d at_)
    (h : receiptRow rt id scope draft sequence previousHash at_ = .ok r) :
    Faithful rt ((Row.receipt r).stored d) := by
  obtain ⟨digest, m, hd, hm, rfl⟩ := receiptRow_ok h
  refine faithful_of_seal hm hat rfl rfl ?_ 
    (nodupKeys_receiptData draft.payload.json_nodupKeys (strs_nodupKeys _))
  show (do let x ← sha256Json rt draft.payload.json; _) = _
  rw [hd]
  show (if digest ≠ digest then _ else _) = _
  rw [if_neg (by simp)]
  rfl

theorem provisioningRow_faithful {tenantSpec : TenantSpec} {workspaceSpec : WorkspaceSpec}
    {r : ReceiptRecord} (hat : Survives d at_)
    (h : provisioningRow rt id scope tenantSpec workspaceSpec sequence previousHash at_ = .ok r) :
    Faithful rt ((Row.receipt r).stored d) := by
  obtain ⟨digest, m, hd, hm, rfl⟩ := provisioningRow_ok h
  have hp : (provisioningPayload tenantSpec workspaceSpec).nodupKeys = true := by
    have hspec : ∀ a b c, (Json.dict [(py "id", .str a), (py "slug", .str b),
        (py "name", .str c)]).nodupKeys = true := by
      intro a b c
      refine nodupKeys_dict (by simp) ?_
      simp [nodupKeys_str]
    refine nodupKeys_dict (by simp) ?_
    simp only [List.mem_cons, List.not_mem_nil, or_false]
    rintro p (rfl | rfl | rfl)
    · exact hspec _ _ _
    · exact hspec _ _ _
    · rfl
  refine faithful_of_seal hm hat rfl rfl ?_ (nodupKeys_receiptData hp rfl)
  show (do let x ← sha256Json rt (provisioningPayload tenantSpec workspaceSpec); _) = _
  rw [hd]
  show (if digest ≠ digest then _ else _) = _
  rw [if_neg (by simp)]
  rfl

theorem idempotencyRow_faithful {keyDigest requestDigest receiptHash : PyStr}
    {r : IdempotencyRecord} (hat : Survives d at_)
    (h : idempotencyRow rt id scope keyDigest requestDigest receiptHash sequence previousHash at_
      = .ok r) : Faithful rt ((Row.idempotency r).stored d) := by
  obtain ⟨m, hm, rfl⟩ := idempotencyRow_ok h
  refine faithful_of_seal hm hat rfl rfl rfl ?_
  refine nodupKeys_dict (by simp [idempotencyData]) ?_
  simp [idempotencyData, nodupKeys_str]

theorem memoryRow_faithful {draft : MemoryDraft} {partitionDigest receiptHash : PyStr}
    {evidenceRefs : List PyStr} {r : MemoryRecord} (hat : Survives d at_)
    (h : memoryRow rt id scope draft partitionDigest evidenceRefs receiptHash sequence previousHash
      at_ = .ok r) : Faithful rt ((Row.memory r).stored d) := by
  obtain ⟨m, hm, rfl⟩ := memoryRow_ok h
  refine faithful_of_seal hm hat rfl rfl rfl ?_
  refine nodupKeys_dict (by simp [memoryData]) ?_
  simp [memoryData, nodupKeys_str, strs_nodupKeys, draft.storedMetadata_nodup]

/-- The datetimes of a trace. -/
def AnatomyTrace.timestamps (t : AnatomyTrace) : List Stamp := t.startedAt :: t.completedAt.toList

/-- The data of a trace is that of its columns. -/
theorem toDict_ok {t : AnatomyTrace} {data : List (PyStr × Json)} (h : t.toDict = .ok data) :
    ∃ startedAt completedAt, isoformatZ t.startedAt = .ok startedAt ∧
      isoOrNull t.completedAt = .ok completedAt ∧
      data = anatomyData t.scope.tenantId.text t.scope.workspaceId.text t.traceId.text
        t.spanId.text (t.parentSpanId.map Uuid.text) t.organ.value t.operation t.state.value
        t.truthLabel.value startedAt completedAt t.inputSha256 t.outputSha256
        t.attributes.json := by
  obtain ⟨startedAt, hs, h⟩ := ok_of_bind h
  obtain ⟨completedAt, hc, h⟩ := ok_of_bind h
  cases h
  exact ⟨startedAt, completedAt, hs, hc, rfl⟩

theorem anatomyRow_faithful {trace : AnatomyTrace} {r : AnatomyTraceRecord}
    (hat : Survives d at_) (ht : ∀ s ∈ trace.timestamps, Survives d s) (hscope : trace.scope = scope)
    (h : anatomyRow rt id scope trace sequence previousHash at_ = .ok r) :
    Faithful rt ((Row.anatomy r).stored d) := by
  obtain ⟨data, m, hd, hm, rfl⟩ := anatomyRow_ok h
  obtain ⟨startedAt, completedAt, hs, hc, rfl⟩ := toDict_ok hd
  have hstart : timestamp (d.stamp trace.startedAt) = .ok startedAt :=
    timestamp_stored (ht _ List.mem_cons_self) hs
  have hcompleted : timestampOrNull (trace.completedAt.map d.stamp) = .ok completedAt := by
    refine timestampOrNull_stored ?_ hc
    intro x hx
    exact ht x (List.mem_cons_of_mem _ (by simp [hx]))
  obtain ⟨_, _, _, _, hmid⟩ := seal_ok hm
  refine faithful_of_seal hm hat rfl rfl ?_ ?_
  · show (do let x ← timestamp (d.stamp trace.startedAt); _) = _
    rw [hstart]
    show (do let x ← timestampOrNull (trace.completedAt.map d.stamp); _) = _
    rw [hcompleted, hscope]
    rw [hmid]
    rfl
  · refine nodupKeys_dict (by simp [anatomyData]) ?_
    simp [anatomyData, nodupKeys_str, nodupKeys_ofOption, nodupKeys_isoOrNull hc]

theorem operationalRow_faithful {draft : OperationalRecordDraft} {version : Int}
    {r : OperationalRecord} (hat : Survives d at_)
    (ho : ∀ s, draft.observedAt = some s → Survives d s)
    (h : operationalRow rt id scope draft version sequence previousHash at_ = .ok r) :
    Faithful rt ((Row.operational r).stored d) := by
  obtain ⟨observedAt, m, hobs, hm, rfl⟩ := operationalRow_ok h
  have hread : timestampOrNull (draft.observedAt.map d.stamp) = .ok observedAt :=
    timestampOrNull_stored ho hobs
  refine faithful_of_seal hm hat rfl rfl ?_ ?_
  · show (do let x ← timestampOrNull (draft.observedAt.map d.stamp); _) = _
    rw [hread]
    rfl
  · refine nodupKeys_dict (by simp [operationalData]) ?_
    simp [operationalData, nodupKeys_str, nodupKeys_int, nodupKeys_ofOption, strs_nodupKeys,
      nodupKeys_isoOrNull hobs]

end Rows

/-! ## §3. Commits. -/

/-- The datetimes that a call is given. -/
def StoreOp.timestamps : StoreOp → List Stamp
  | .createTenant _ | .createWorkspace _ | .provisionScope _ _ => []
  | .appendReceipt _ _ _ createdAt | .appendMemory _ _ _ createdAt => createdAt.toList
  | .appendAnatomyTrace trace createdAt => createdAt.toList ++ trace.timestamps
  | .appendAnalysisBundle _ _ _ traces _ _ createdAt =>
      createdAt.toList ++ traces.flatMap AnatomyTrace.timestamps
  | .insertOperational _ draft createdAt | .upsertOperational _ draft _ createdAt =>
      createdAt.toList ++ draft.observedAt.toList
  | .upsertOperationalBatch _ drafts createdAt =>
      createdAt.toList ++ drafts.flatMap (fun draft => draft.observedAt.toList)

/-- All rows that statements append are read back as they were written. -/
def WritesFaithful (rt : Runtime) (d : Dialect) (ws : List Write) : Prop :=
  ∀ r, Write.addRow r ∈ ws → Faithful rt (r.stored d)

theorem survives_at {c : StoreCall} {createdAt : Option Stamp}
    (h : ∀ s ∈ createdAt.toList, Survives d s) : Survives d (c.at_ createdAt) := by
  cases createdAt with
  | none => exact survives_instant _
  | some s => exact h s (by simp)

theorem writesFaithful_appends {as : List StreamAppend}
    (h : ∀ a ∈ as, ∀ r ∈ a.rows, Faithful rt (r.stored d)) :
    WritesFaithful rt d (appendWrites as) := by
  intro r hr
  obtain ⟨a, ha, hra⟩ := mem_appendWrites.mp hr
  exact h a ha r hra

theorem provisionWrites_faithful {sup : Supply} {tenantSpec : TenantSpec}
    {workspaceSpec : WorkspaceSpec} {receipt : ReceiptRecord} {head : StreamHeadRecord}
    (h : provisioningRow rt (sup.uuid 0) ⟨tenantSpec.id, workspaceSpec.id⟩ tenantSpec
      workspaceSpec 1 none (sup.now 7).stamp = .ok receipt) :
    WritesFaithful rt d (provisionWrites sup tenantSpec workspaceSpec receipt head) := by
  intro r hr
  have hr' : Write.addRow r ∈ appendWrites [⟨[.receipt receipt],
      advanceHead head receipt.sequence receipt.recordHash (sup.now 7).stamp⟩] := by
    rcases List.mem_append.mp hr with hr | hr
    · rcases workspace_writes hr with hr | ⟨_, _, hr⟩ <;> cases hr
    · exact hr
  simp only [mem_appendWrites, List.mem_singleton, exists_eq_left] at hr'
  rw [hr']
  exact provisioningRow_faithful (survives_instant _) h

theorem provisionCommit_faithful {sup : Supply} {tenantSpec : TenantSpec}
    {workspaceSpec : WorkspaceSpec} {db : Db} {ws : List Write} {r : ScopeProvisioning}
    (h : ProvisionCommit rt sup tenantSpec workspaceSpec db ws r) : WritesFaithful rt d ws := by
  cases h with
  | tenant =>
    intro r hr
    simp at hr
  | workspace hrow => exact provisionWrites_faithful hrow
  | both hrow =>
    intro r hr
    rcases List.mem_cons.mp hr with hr | hr
    · cases hr
    · exact provisionWrites_faithful hrow r hr

theorem traceRows_faithful {sup : Supply} {scope : Scope} {at_ : Stamp}
    {traces : List AnatomyTrace} {i : Nat} {n : Int} {p : Option PyStr}
    {rows : List AnatomyTraceRecord} (hat : Survives d at_)
    (ht : ∀ t ∈ traces, t.scope = scope ∧ ∀ s ∈ t.timestamps, Survives d s)
    (h : traceRows rt sup scope at_ traces i n p = .ok rows) :
    ∀ r ∈ rows, Faithful rt ((Row.anatomy r).stored d) := by
  induction traces generalizing i n p rows with
  | nil => cases h; simp
  | cons trace traces ih =>
    obtain ⟨row, hrow, h⟩ := ok_of_bind h
    obtain ⟨rest, hrest, h⟩ := ok_of_bind h
    cases h
    obtain ⟨hscope, htimes⟩ := ht trace List.mem_cons_self
    intro r hr
    rcases List.mem_cons.mp hr with rfl | hr
    · exact anatomyRow_faithful hat htimes hscope hrow
    · exact ih (fun t ht' => ht t (List.mem_cons_of_mem _ ht')) hrest r hr

/-- The traces of a bundle that passed its checks are of its scope. -/
theorem checkBundleArguments_scope {scope : Scope} {receiptDraft : ReceiptDraft}
    {memoryDraft : MemoryDraft} {traces : List AnatomyTrace} {requestDigest : PyStr}
    (h : checkBundleArguments rt scope receiptDraft memoryDraft traces requestDigest = .ok ()) :
    ∀ t ∈ traces, t.scope = scope := by
  unfold checkBundleArguments at h
  obtain ⟨_, h⟩ := ok_of_guard h
  obtain ⟨_, h⟩ := ok_of_guard h
  split at h
  · cases h
  · obtain ⟨hscopes, _⟩ := ok_of_guard h
    intro t ht
    simp only [Bool.or_eq_true, List.any_eq_true, decide_eq_true_eq, not_or, not_exists,
      not_and, not_not] at hscopes
    exact hscopes.2 t ht

theorem batchRows_faithful {sup : Supply} {scope : Scope} {at_ : Stamp} {db : Db} {i : Nat}
    {drafts : List OperationalRecordDraft} {head head' : StreamHeadRecord}
    {rows : List OperationalRecord} (hat : Survives d at_)
    (ho : ∀ draft ∈ drafts, ∀ s ∈ draft.observedAt.toList, Survives d s)
    (h : BatchRows rt sup scope at_ db i drafts head rows head') :
    ∀ r ∈ rows, Faithful rt ((Row.operational r).stored d) := by
  induction h with
  | nil => simp
  | skip _ _ ih => exact ih (fun draft hd => ho draft (List.mem_cons_of_mem _ hd))
  | @write i draft drafts head row rows head' hrow _ ih =>
    intro r hr
    rcases List.mem_cons.mp hr with rfl | hr
    · exact operationalRow_faithful hat
        (fun s hs => ho draft List.mem_cons_self s (by simp [hs])) hrow
    · exact ih (fun draft hd => ho draft (List.mem_cons_of_mem _ hd)) r hr

/-- **A call whose datetimes survive writes rows that the auditor projects to
their bases.** -/
theorem StoreCall.Commits.faithful {c : StoreCall} {db : Db} {ws : List Write} {r : StoreResult}
    (h : c.Commits rt db ws r) (ht : ∀ s ∈ c.op.timestamps, Survives d s) :
    WritesFaithful rt d ws := by
  cases h with
  | tenant => intro r hr; simp at hr
  | workspace _ h =>
    cases h
    intro r hr
    rcases workspace_writes hr with hr | ⟨_, _, hr⟩ <;> cases hr
  | provisioning _ h =>
    rcases h with h | h
    · exact provisionCommit_faithful h
    · exact provisionCommit_faithful h
  | receipt hop _ h =>
    rw [hop] at ht
    have hat := survives_at (c := c) ht
    cases h with
    | plain _ _ _ hrow =>
      refine writesFaithful_appends ?_
      simpa using receiptRow_faithful hat hrow
    | keyed _ _ _ _ hrow hrow' =>
      refine writesFaithful_appends ?_
      simpa using ⟨receiptRow_faithful hat hrow, idempotencyRow_faithful hat hrow'⟩
  | memory hop h =>
    rw [hop] at ht
    cases h with
    | mk _ _ _ _ _ hrow =>
      refine writesFaithful_appends ?_
      simpa using memoryRow_faithful (survives_at ht) hrow
  | anatomy hop h =>
    rw [hop] at ht
    simp only [StoreOp.timestamps, List.mem_append] at ht
    cases h with
    | mk _ _ hrow =>
      refine writesFaithful_appends ?_
      simpa using anatomyRow_faithful (survives_at (fun s hs => ht s (.inl hs)))
        (fun s hs => ht s (.inr hs)) rfl hrow
  | @bundle scope _ _ traces _ _ _ _ _ hop _ h =>
    rw [hop] at ht
    simp only [StoreOp.timestamps, List.mem_append] at ht
    have hat := survives_at (c := c) (fun s hs => ht s (.inl hs))
    obtain ⟨hcheck, rows, hc, _⟩ := h
    cases hc with
    | mk _ _ _ _ _ hrows =>
      obtain ⟨hr, hi, hm, hts⟩ := bundleRows_ok hrows
      have htraces : ∀ t ∈ traces, t.scope = scope ∧ ∀ s ∈ t.timestamps, Survives d s := by
        intro t hmem
        exact ⟨checkBundleArguments_scope hcheck t hmem,
          fun s hs => ht s (.inr (List.mem_flatMap.mpr ⟨t, hmem, hs⟩))⟩
      refine writesFaithful_appends ?_
      simpa [BundleRows.appends] using ⟨receiptRow_faithful hat hr, idempotencyRow_faithful hat hi,
        memoryRow_faithful hat hm, traceRows_faithful hat htraces hts⟩
  | insert hop h =>
    rw [hop] at ht
    simp only [StoreOp.timestamps, List.mem_append] at ht
    cases h with
    | mk _ _ _ _ _ hrow =>
      refine writesFaithful_appends ?_
      simpa using operationalRow_faithful (survives_at (fun s hs => ht s (.inl hs)))
        (fun s hs => ht s (.inr (by simp [hs]))) hrow
  | upsert hop h =>
    rw [hop] at ht
    simp only [StoreOp.timestamps, List.mem_append] at ht
    cases h with
    | mk _ _ _ _ _ hrow =>
      refine writesFaithful_appends ?_
      simpa using operationalRow_faithful (survives_at (fun s hs => ht s (.inl hs)))
        (fun s hs => ht s (.inr (by simp [hs]))) hrow
  | batch hop h =>
    rw [hop] at ht
    simp only [StoreOp.timestamps, List.mem_append] at ht
    cases h with
    | mk _ _ hrows _ =>
      refine writesFaithful_appends ?_
      simpa using batchRows_faithful (survives_at (fun s hs => ht s (.inl hs)))
        (fun draft hd s hs => ht s (.inr (List.mem_flatMap.mpr ⟨draft, hd, hs⟩))) hrows

end Lyte
