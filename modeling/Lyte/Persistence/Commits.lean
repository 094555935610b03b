import Lyte.Persistence.Invariant

/-
  Lyte.Persistence.Commits — what each operation commits.

  One relation for each operation: `XCommit … db ws a` says that `ws` are the
  rows with which the operation may commit on the committed rows `db`, and that
  it then returns `a`.  The `effect` lemmas show each of them to be an effect of
  the store (`Persistence/Invariant.lean`), so that nothing below this file has
  to look at an operation again.
-/

namespace Lyte

open Transact HashChain

/-! ## §1. The relations. -/

section Relations

variable (rt : Runtime) (sup : Supply)

/-- The rows of `append_receipt`, without and with a key. -/
inductive ReceiptCommit (scope : Scope) (draft : ReceiptDraft) (keyDigest : Option PyStr)
    (requestDigest : PyStr) (at_ : Stamp) (db : Db) : List Write → ReceiptRecord → Prop
  | plain {head receipt} : keyDigest = none → HasWorkspace db scope →
      headOf db scope .receipts = some head →
      receiptRow rt (sup.uuid 0) scope draft (head.lastSequence + 1) head.lastHash at_
        = .ok receipt →
      ReceiptCommit scope draft keyDigest requestDigest at_ db
        (appendWrites [⟨[.receipt receipt],
          advanceHead head receipt.sequence receipt.recordHash at_⟩]) receipt
  | keyed {kd head receipt head' row} : keyDigest = some kd → HasWorkspace db scope →
      headOf db scope .receipts = some head → headOf db scope .idempotency = some head' →
      receiptRow rt (sup.uuid 0) scope draft (head.lastSequence + 1) head.lastHash at_
        = .ok receipt →
      idempotencyRow rt (sup.uuid 1) scope kd requestDigest receipt.recordHash
        (head'.lastSequence + 1) head'.lastHash at_ = .ok row →
      ReceiptCommit scope draft keyDigest requestDigest at_ db
        (appendWrites [⟨[.receipt receipt],
            advanceHead head receipt.sequence receipt.recordHash at_⟩,
          ⟨[.idempotency row], advanceHead head' row.sequence row.recordHash at_⟩]) receipt

/-- The rows of `append_memory`. -/
inductive MemoryCommit (scope : Scope) (draft : MemoryDraft) (receiptHash partitionDigest : PyStr)
    (at_ : Stamp) (db : Db) : List Write → MemoryRecord → Prop
  | mk {evidence head row} : HasWorkspace db scope → evidence ∈ db.receipts →
      evidence.inScope scope = true → evidence.recordHash = receiptHash →
      headOf db scope .memory = some head →
      memoryRow rt (sup.uuid 0) scope draft partitionDigest draft.evidenceRefs receiptHash
        (head.lastSequence + 1) head.lastHash at_ = .ok row →
      MemoryCommit scope draft receiptHash partitionDigest at_ db
        (appendWrites [⟨[.memory row], advanceHead head row.sequence row.recordHash at_⟩]) row

/-- The rows of `append_anatomy_trace`. -/
inductive AnatomyCommit (trace : AnatomyTrace) (at_ : Stamp) (db : Db) :
    List Write → AnatomyTraceRecord → Prop
  | mk {head row} : HasWorkspace db trace.scope →
      headOf db trace.scope .anatomy = some head →
      anatomyRow rt (sup.uuid 0) trace.scope trace (head.lastSequence + 1) head.lastHash at_
        = .ok row →
      AnatomyCommit trace at_ db
        (appendWrites [⟨[.anatomy row], advanceHead head row.sequence row.recordHash at_⟩]) row

/-- The rows of `append_analysis_bundle`. -/
inductive BundleCommit (scope : Scope) (receiptDraft : ReceiptDraft) (memoryDraft : MemoryDraft)
    (traces : List AnatomyTrace) (keyDigest requestDigest partitionDigest : PyStr) (at_ : Stamp)
    (db : Db) : List Write → BundleRows → Prop
  | mk {receiptHead idempotencyHead memoryHead anatomyHead rows} : HasWorkspace db scope →
      headOf db scope .receipts = some receiptHead →
      headOf db scope .idempotency = some idempotencyHead →
      headOf db scope .memory = some memoryHead →
      headOf db scope .anatomy = some anatomyHead →
      bundleRows rt sup scope receiptDraft memoryDraft traces keyDigest requestDigest
        partitionDigest at_ receiptHead idempotencyHead memoryHead anatomyHead = .ok rows →
      BundleCommit scope receiptDraft memoryDraft traces keyDigest requestDigest partitionDigest
        at_ db (appendWrites
          (rows.appends at_ receiptHead idempotencyHead memoryHead anatomyHead)) rows

/-- A version of the entity that was read, if any was. -/
def SeenVersion (db : Db) (scope : Scope) (entityKind entityId : PyStr)
    (latest : Option OperationalRecord) : Prop :=
  ∀ o, latest = some o → o ∈ entityVersions db scope entityKind entityId

/-- The rows of `_write_operational`. -/
inductive OperationalCommit (scope : Scope) (draft : OperationalRecordDraft) (insertOnly : Bool)
    (expectedVersion : Option Int) (at_ : Stamp) (db : Db) : List Write → OperationalRecord → Prop
  | mk {latest head row} : HasWorkspace db scope →
      SeenVersion db scope draft.entityKind.value draft.entityId latest →
      (insertOnly = true → latest = none) →
      (∀ v, expectedVersion = some v → v = currentVersion latest) →
      headOf db scope .operational = some head →
      operationalRow rt (sup.uuid 0) scope draft (currentVersion latest + 1)
        (head.lastSequence + 1) head.lastHash at_ = .ok row →
      OperationalCommit scope draft insertOnly expectedVersion at_ db
        (appendWrites [⟨[.operational row], advanceHead head row.sequence row.recordHash at_⟩]) row

/-- The loop of `upsert_operational_batch` on unchanging versions. -/
inductive BatchRows (scope : Scope) (at_ : Stamp) (db : Db) : Nat → List OperationalRecordDraft →
    StreamHeadRecord → List OperationalRecord → StreamHeadRecord → Prop
  | nil {i head} : BatchRows scope at_ db i [] head [] head
  | skip {i draft drafts head rows head'} :
      (latestOperational db scope draft.entityKind.value draft.entityId).any
        (fun r => unchanged r draft) = true →
      BatchRows scope at_ db i drafts head rows head' →
      BatchRows scope at_ db i (draft :: drafts) head rows head'
  | write {i draft drafts head row rows head'} :
      operationalRow rt (sup.uuid i) scope draft
        (currentVersion (latestOperational db scope draft.entityKind.value draft.entityId) + 1)
        (head.lastSequence + 1) head.lastHash at_ = .ok row →
      BatchRows scope at_ db (i + 1) drafts (advanceHead head row.sequence row.recordHash at_) rows
        head' →
      BatchRows scope at_ db i (draft :: drafts) head (row :: rows) head'

/-- The rows of `upsert_operational_batch`. -/
inductive BatchCommit (scope : Scope) (drafts : List OperationalRecordDraft) (at_ : Stamp)
    (db : Db) : List Write → List OperationalRecord → Prop
  | mk {head rows head'} : HasWorkspace db scope → headOf db scope .operational = some head →
      BatchRows rt sup scope at_ db 0 drafts head rows head' → rows ≠ [] →
      BatchCommit scope drafts at_ db (appendWrites [⟨rows.map .operational, head'⟩]) rows

/-- The rows of `create_workspace`. -/
inductive WorkspaceCommit (spec : WorkspaceSpec) (db : Db) : List Write → WorkspaceRecord → Prop
  | mk : WorkspaceCommit spec db
      (.addWorkspace (workspaceRow spec.tenantId spec (sup.now 0)) ::
        (initialHeads ⟨spec.tenantId, spec.id⟩ (fun k => sup.now (1 + k.ordinal))).map .addHead)
      (workspaceRow spec.tenantId spec (sup.now 0))

/-- The statements that create a workspace and its first receipt. -/
def provisionWrites (tenantSpec : TenantSpec) (workspaceSpec : WorkspaceSpec)
    (receipt : ReceiptRecord) (head : StreamHeadRecord) : List Write :=
  (.addWorkspace (workspaceRow tenantSpec.id workspaceSpec (sup.now 1)) ::
    (initialHeads ⟨tenantSpec.id, workspaceSpec.id⟩ (fun k => sup.now (2 + k.ordinal))).map
      .addHead) ++
  appendWrites [⟨[.receipt receipt],
    advanceHead head receipt.sequence receipt.recordHash (sup.now 7).stamp⟩]

/-- The head of a workspace that is being created. -/
def newHead (tenantSpec : TenantSpec) (workspaceSpec : WorkspaceSpec) : StreamHeadRecord :=
  ⟨tenantSpec.id.text, workspaceSpec.id.text, StreamKind.receipts.value, 0, none,
    (sup.now 2).stamp⟩

/-- The rows of `_provision_scope_once`: what was missing. -/
inductive ProvisionCommit (tenantSpec : TenantSpec) (workspaceSpec : WorkspaceSpec) (db : Db) :
    List Write → ScopeProvisioning → Prop
  | tenant {result} : ProvisionCommit tenantSpec workspaceSpec db
      [.addTenant (tenantRow tenantSpec (sup.now 0))] result
  | workspace {receipt result} :
      provisioningRow rt (sup.uuid 0) ⟨tenantSpec.id, workspaceSpec.id⟩ tenantSpec workspaceSpec 1
        none (sup.now 7).stamp = .ok receipt →
      ProvisionCommit tenantSpec workspaceSpec db
        (provisionWrites sup tenantSpec workspaceSpec receipt
          (newHead sup tenantSpec workspaceSpec)) result
  | both {receipt result} :
      provisioningRow rt (sup.uuid 0) ⟨tenantSpec.id, workspaceSpec.id⟩ tenantSpec workspaceSpec 1
        none (sup.now 7).stamp = .ok receipt →
      ProvisionCommit tenantSpec workspaceSpec db
        (.addTenant (tenantRow tenantSpec (sup.now 0)) ::
          provisionWrites sup tenantSpec workspaceSpec receipt
            (newHead sup tenantSpec workspaceSpec)) result

end Relations

/-! ## §2. They are effects. -/

section Effects

variable {rt : Runtime} {sup : Supply} {d : Dialect} {db : Db} {ws : List Write}

/-- One sealed row behind a head. -/
theorem extends_one {scope : Scope} {k : StreamKind} {head : StreamHeadRecord} {at_ : Stamp}
    {row : Row} (hk : row.stream = k)
    (hh : headOf db scope k = some head)
    (hrow : SealedAt rt scope k (head.lastSequence + 1) head.lastHash at_ row.mixin) :
    Extends rt scope k head
      ⟨[row], advanceHead head row.mixin.sequence row.mixin.recordHash at_⟩ where
  stream := by simp [hk]
  chain := ⟨hrow.sequence, hrow.previousHash, hrow.sealed, trivial⟩
  names := by
    have h := names_of_head? hh
    exact h
  tip := rfl

theorem linked_receipt {as : List StreamAppend}
    (h : ∀ r, Write.addRow r ∈ appendWrites as → r.stream = .receipts ∨ r.stream = .anatomy) :
    Linked db (appendWrites as) where
  keyed _ hi := by rcases h _ hi with h | h <;> cases h
  memory _ hm := by rcases h _ hm with h | h <;> cases h
  versions _ ho := by rcases h _ ho with h | h <;> cases h

theorem sameScope_of_sealed {scope : Scope} {k k' : StreamKind} {a b : AppendOnlyMixin}
    (ha : Sealed rt scope k a) (hb : Sealed rt scope k' b) : SameScope a b :=
  ⟨ha.tenant.trans hb.tenant.symm, ha.workspace.trans hb.workspace.symm⟩

/-- An append to one stream. -/
theorem effect_one (scope : Scope) {k : StreamKind} {head : StreamHeadRecord} {a : StreamAppend}
    (hws : HasWorkspace db scope) (hh : headOf db scope k = some head)
    (he : Extends rt scope k head a) (hl : Linked db (appendWrites [a])) :
    Effect rt d db (appendWrites [a]) :=
  .append scope [(k, a)] hws (by simpa using ⟨head, hh, he⟩) (by simp) hl

theorem ReceiptCommit.effect {scope : Scope} {draft : ReceiptDraft} {keyDigest : Option PyStr}
    {requestDigest : PyStr} {at_ : Stamp} {r : ReceiptRecord}
    (h : ReceiptCommit rt sup scope draft keyDigest requestDigest at_ db ws r) :
    Effect rt d db ws := by
  cases h with
  | plain _ hws hh hrow =>
    refine effect_one _ hws hh (extends_one rfl hh (receiptRow_sealed hrow))
      (linked_receipt fun x hx => ?_)
    obtain ⟨a, ha, hxa⟩ := mem_appendWrites.mp hx
    simp only [List.mem_singleton] at ha
    subst ha
    rw [List.mem_singleton.mp hxa]
    exact .inl rfl
  | @keyed _ head _ head' row _ hws hh hh' hrow hrow' =>
    have hs := receiptRow_sealed hrow
    have hs' := idempotencyRow_sealed hrow'
    refine .append _ [(.receipts, ⟨[.receipt r], _⟩), (.idempotency, ⟨[.idempotency row], _⟩)]
      hws ?_ (by simp) ?_
    · simp only [List.mem_cons, List.not_mem_nil, or_false]
      rintro p (rfl | rfl)
      · exact ⟨head, hh, extends_one rfl hh hs⟩
      · exact ⟨head', hh', extends_one rfl hh' hs'⟩
    · refine ⟨fun i hi => ?_, fun m hm => ?_, fun o ho => ?_⟩
      · simp [mem_appendWrites] at hi
        subst hi
        refine ⟨r, by simp [mem_appendWrites], sameScope_of_sealed hs.sealed hs'.sealed, ?_⟩
        obtain ⟨_, _, rfl⟩ := idempotencyRow_ok hrow'
        rfl
      · simp [mem_appendWrites] at hm
      · simp [mem_appendWrites] at ho

theorem MemoryCommit.effect {scope : Scope} {draft : MemoryDraft}
    {receiptHash partitionDigest : PyStr} {at_ : Stamp} {r : MemoryRecord}
    (h : MemoryCommit rt sup scope draft receiptHash partitionDigest at_ db ws r) :
    Effect rt d db ws := by
  cases h with
  | @mk evidence head row hws hev hin hhash hh hrow =>
    have hs := memoryRow_sealed hrow
    refine effect_one _ hws hh (extends_one rfl hh hs) ⟨fun i hi => ?_, fun m hm => ?_, fun o ho => ?_⟩
    · simp [mem_appendWrites] at hi
    · simp [mem_appendWrites] at hm
      subst hm
      simp only [AppendOnlyMixin.inScope, Bool.and_eq_true, beq_iff_eq] at hin
      refine ⟨evidence, .inl hev, ⟨hin.1.trans hs.sealed.tenant.symm,
        hin.2.trans hs.sealed.workspace.symm⟩, ?_⟩
      obtain ⟨_, _, rfl⟩ := memoryRow_ok hrow
      rw [hhash]
    · simp [mem_appendWrites] at ho

theorem AnatomyCommit.effect {trace : AnatomyTrace} {at_ : Stamp} {r : AnatomyTraceRecord}
    (h : AnatomyCommit rt sup trace at_ db ws r) : Effect rt d db ws := by
  cases h with
  | mk hws hh hrow =>
    refine effect_one _ hws hh (extends_one rfl hh (anatomyRow_sealed hrow))
      (linked_receipt fun x hx => ?_)
    obtain ⟨a, ha, hxa⟩ := mem_appendWrites.mp hx
    simp only [List.mem_singleton] at ha
    subst ha
    rw [List.mem_singleton.mp hxa]
    exact .inr rfl

/-- A version that was read is in the table, in the scope and of the entity. -/
theorem mem_entityVersions {scope : Scope} {kind id : PyStr} {o : OperationalRecord} :
    o ∈ entityVersions db scope kind id ↔ o ∈ db.operational ∧ o.inScope scope = true ∧
      o.entityKind = kind ∧ o.entityId = id := by
  simp [entityVersions, and_assoc]

theorem latestVersion_mem {os : List OperationalRecord} {o : OperationalRecord}
    (h : latestVersion os = some o) : o ∈ os := by
  induction os with
  | nil => cases h
  | cons r rs ih =>
    simp only [latestVersion] at h
    split at h
    · cases h
      exact List.mem_cons_self
    · split at h
      · cases h
        exact List.mem_cons_self
      · cases h
        exact List.mem_cons_of_mem _ (ih (by assumption))

theorem seenVersion_latest (db : Db) (scope : Scope) (kind id : PyStr) :
    SeenVersion db scope kind id (latestOperational db scope kind id) :=
  fun _ ho => latestVersion_mem ho

/-- A version number follows the one that was read. -/
theorem linked_version {scope : Scope} {draft : OperationalRecordDraft}
    {latest : Option OperationalRecord} {id : PyStr} {n : Int} {p : Option PyStr} {at_ : Stamp}
    {row : OperationalRecord}
    (hseen : SeenVersion db scope draft.entityKind.value draft.entityId latest)
    (hrow : operationalRow rt id scope draft (currentVersion latest + 1) n p at_ = .ok row) :
    row.version = 1 ∨ ∃ q ∈ db.operational, SameScope q.toAppendOnlyMixin row.toAppendOnlyMixin ∧
      q.entityKind = row.entityKind ∧ q.entityId = row.entityId ∧ row.version = q.version + 1 := by
  have hs := (operationalRow_sealed hrow).sealed
  obtain ⟨_, _, _, _, rfl⟩ := operationalRow_ok hrow
  cases latest with
  | none => exact .inl rfl
  | some o =>
    obtain ⟨ho, hin, hkind, hid⟩ := mem_entityVersions.mp (hseen o rfl)
    simp only [AppendOnlyMixin.inScope, Bool.and_eq_true, beq_iff_eq] at hin
    exact .inr ⟨o, ho, ⟨hin.1.trans hs.tenant.symm, hin.2.trans hs.workspace.symm⟩, hkind, hid, rfl⟩

theorem OperationalCommit.effect {scope : Scope} {draft : OperationalRecordDraft}
    {insertOnly : Bool} {expectedVersion : Option Int} {at_ : Stamp} {r : OperationalRecord}
    (h : OperationalCommit rt sup scope draft insertOnly expectedVersion at_ db ws r) :
    Effect rt d db ws := by
  cases h with
  | mk hws hseen _ _ hh hrow =>
    refine effect_one _ hws hh (extends_one rfl hh (operationalRow_sealed hrow))
      ⟨fun i hi => ?_, fun m hm => ?_, fun o ho => ?_⟩
    · simp [mem_appendWrites] at hi
    · simp [mem_appendWrites] at hm
    · simp [mem_appendWrites] at ho
      subst ho
      exact linked_version hseen hrow

/-- The batch loop chains its rows behind the head. -/
theorem BatchRows.spec {scope : Scope} {at_ : Stamp} {i : Nat}
    {drafts : List OperationalRecordDraft} {head head' : StreamHeadRecord}
    {rows : List OperationalRecord} (h : BatchRows rt sup scope at_ db i drafts head rows head') :
    Chained rowLinks (Sealed rt scope .operational) head.lastSequence head.lastHash
        (rows.map OperationalRecord.toAppendOnlyMixin) ∧
      (head'.lastSequence, head'.lastHash) = tip rowLinks (head.lastSequence, head.lastHash)
        (rows.map OperationalRecord.toAppendOnlyMixin) ∧
      (∀ t w k, head'.names t w k = head.names t w k) ∧
      ∀ o ∈ rows, o.version = 1 ∨ ∃ q ∈ db.operational,
        SameScope q.toAppendOnlyMixin o.toAppendOnlyMixin ∧ q.entityKind = o.entityKind ∧
        q.entityId = o.entityId ∧ o.version = q.version + 1 := by
  induction h with
  | nil => exact ⟨trivial, rfl, fun _ _ _ => rfl, by simp⟩
  | skip _ _ ih => exact ih
  | @write i draft drafts head row rows head' hrow _ ih =>
    have hs := operationalRow_sealed hrow
    obtain ⟨hchain, htip, hnames, hver⟩ := ih
    refine ⟨⟨hs.sequence, hs.previousHash, hs.sealed, ?_⟩, ?_, hnames, ?_⟩
    · have hseq : head.lastSequence + 1 = row.sequence := hs.sequence.symm
      rw [hseq]
      exact hchain
    · rw [htip, List.map_cons, tip_cons]
      rfl
    · intro o ho
      rcases List.mem_cons.mp ho with rfl | ho
      · exact linked_version (seenVersion_latest _ _ _ _) hrow
      · exact hver o ho

theorem BatchCommit.effect {scope : Scope} {drafts : List OperationalRecordDraft} {at_ : Stamp}
    {rs : List OperationalRecord} (h : BatchCommit rt sup scope drafts at_ db ws rs) :
    Effect rt d db ws := by
  cases h with
  | mk hws hh hrows _ =>
    obtain ⟨hchain, htip, hnames, hver⟩ := hrows.spec
    have hmix : (rs.map Row.operational).map Row.mixin
        = rs.map OperationalRecord.toAppendOnlyMixin := by simp [Function.comp_def]
    refine effect_one _ hws hh ⟨?_, ?_, ?_, ?_⟩ ⟨fun i hi => ?_, fun m hm => ?_, fun o ho => ?_⟩
    · intro r hr
      obtain ⟨o, _, rfl⟩ := List.mem_map.mp hr
      rfl
    · rw [hmix]
      exact hchain
    · exact (hnames _ _ _).trans (names_of_head? hh)
    · rw [hmix]
      exact htip
    · simp [mem_appendWrites] at hi
    · simp [mem_appendWrites] at hm
    · simp [mem_appendWrites] at ho
      exact hver o ho

/-- The parts of a new bundle. -/
theorem bundleRows_ok {scope : Scope} {receiptDraft : ReceiptDraft} {memoryDraft : MemoryDraft}
    {traces : List AnatomyTrace} {keyDigest requestDigest partitionDigest : PyStr} {at_ : Stamp}
    {receiptHead idempotencyHead memoryHead anatomyHead : StreamHeadRecord} {rows : BundleRows}
    (h : bundleRows rt sup scope receiptDraft memoryDraft traces keyDigest requestDigest
      partitionDigest at_ receiptHead idempotencyHead memoryHead anatomyHead = .ok rows) :
    receiptRow rt (sup.uuid 0) scope receiptDraft (receiptHead.lastSequence + 1)
        receiptHead.lastHash at_ = .ok rows.receipt ∧
      idempotencyRow rt (sup.uuid 1) scope keyDigest requestDigest rows.receipt.recordHash
        (idempotencyHead.lastSequence + 1) idempotencyHead.lastHash at_ = .ok rows.idempotency ∧
      memoryRow rt (sup.uuid 2) scope memoryDraft partitionDigest
        (fromkeys (memoryDraft.evidenceRefs ++ [rows.receipt.recordHash])) rows.receipt.recordHash
        (memoryHead.lastSequence + 1) memoryHead.lastHash at_ = .ok rows.memory ∧
      traceRows rt sup scope at_ traces 3 (anatomyHead.lastSequence + 1) anatomyHead.lastHash
        = .ok rows.traces := by
  obtain ⟨receipt, hr, h⟩ := ok_of_bind h
  obtain ⟨idem, hi, h⟩ := ok_of_bind h
  obtain ⟨memory, hm, h⟩ := ok_of_bind h
  obtain ⟨trs, ht, h⟩ := ok_of_bind h
  cases h
  exact ⟨hr, hi, hm, ht⟩

/-- The head behind a chain of rows is its tip. -/
theorem headBehind_tip (head : StreamHeadRecord) (at_ : Stamp) (ms : List AppendOnlyMixin) :
    ((headBehind head at_ ms).lastSequence, (headBehind head at_ ms).lastHash)
        = tip rowLinks (head.lastSequence, head.lastHash) ms ∧
      ∀ t w k, (headBehind head at_ ms).names t w k = head.names t w k := by
  cases h : ms.getLast? with
  | none => simp [headBehind, tip, h]
  | some m => simp [headBehind, tip, h, advanceHead, StreamHeadRecord.names]

theorem BundleCommit.effect {scope : Scope} {receiptDraft : ReceiptDraft}
    {memoryDraft : MemoryDraft} {traces : List AnatomyTrace}
    {keyDigest requestDigest partitionDigest : PyStr} {at_ : Stamp} {rows : BundleRows}
    (h : BundleCommit rt sup scope receiptDraft memoryDraft traces keyDigest requestDigest
      partitionDigest at_ db ws rows) : Effect rt d db ws := by
  cases h with
  | @mk receiptHead idempotencyHead memoryHead anatomyHead _ hws hrh hih hmh hah hrows =>
    obtain ⟨hr, hi, hm, ht⟩ := bundleRows_ok hrows
    have hsr := receiptRow_sealed hr
    have hsi := idempotencyRow_sealed hi
    have hsm := memoryRow_sealed hm
    obtain ⟨hchain, _⟩ := traceRows_sealed ht
    obtain ⟨htip, hnames⟩ := headBehind_tip anatomyHead at_
      (rows.traces.map AnatomyTraceRecord.toAppendOnlyMixin)
    have hmix : (rows.traces.map Row.anatomy).map Row.mixin
        = rows.traces.map AnatomyTraceRecord.toAppendOnlyMixin := by simp [Function.comp_def]
    refine .append _ [(.receipts, _), (.idempotency, _), (.memory, _), (.anatomy, _)]
      hws ?_ (by simp) ⟨fun i hi' => ?_, fun m hm' => ?_, fun o ho => ?_⟩
    · simp only [List.mem_cons, List.not_mem_nil, or_false]
      rintro p (rfl | rfl | rfl | rfl)
      · exact ⟨receiptHead, hrh, extends_one rfl hrh hsr⟩
      · exact ⟨idempotencyHead, hih, extends_one rfl hih hsi⟩
      · exact ⟨memoryHead, hmh, extends_one rfl hmh hsm⟩
      · refine ⟨anatomyHead, hah, ?_, ?_, ?_, ?_⟩
        · intro r hr
          obtain ⟨o, _, rfl⟩ := List.mem_map.mp hr
          rfl
        · rw [hmix]
          exact hchain
        · exact (hnames _ _ _).trans (names_of_head? hah)
        · rw [hmix]
          exact htip
    · simp [mem_appendWrites] at hi'
      subst hi'
      refine ⟨rows.receipt, by simp [mem_appendWrites],
        sameScope_of_sealed hsr.sealed hsi.sealed, ?_⟩
      obtain ⟨_, _, he⟩ := idempotencyRow_ok hi
      rw [he]
    · simp [mem_appendWrites] at hm'
      subst hm'
      refine ⟨rows.receipt, .inr (by simp [mem_appendWrites]),
        sameScope_of_sealed hsr.sealed hsm.sealed, ?_⟩
      obtain ⟨_, _, he⟩ := memoryRow_ok hm
      rw [he]
    · simp [mem_appendWrites] at ho

theorem WorkspaceCommit.effect {spec : WorkspaceSpec} {r : WorkspaceRecord}
    (h : WorkspaceCommit sup spec db ws r) : Effect rt d db ws := by
  cases h with
  | mk => exact .workspace _ rfl rfl

/-- Creating a workspace and its first receipt, one after the other. -/
theorem effect_provision {tenantSpec : TenantSpec} {workspaceSpec : WorkspaceSpec}
    {receipt : ReceiptRecord}
    (hrow : provisioningRow rt (sup.uuid 0) ⟨tenantSpec.id, workspaceSpec.id⟩ tenantSpec
      workspaceSpec 1 none (sup.now 7).stamp = .ok receipt)
    (hf : index.Fresh db (provisionWrites sup tenantSpec workspaceSpec receipt
      (newHead sup tenantSpec workspaceSpec))) :
    Effect rt d db (provisionWrites sup tenantSpec workspaceSpec receipt
      (newHead sup tenantSpec workspaceSpec)) := by
  obtain ⟨hf₁, _⟩ := fresh_split (d := d) _ hf
  refine .seq (.workspace _ rfl rfl) ?_
  obtain ⟨h, hh, hseq, hhash⟩ := headOf_workspace (d := d) hf₁ .receipts
  have hs := provisioningRow_sealed hrow
  refine effect_one ⟨tenantSpec.id, workspaceSpec.id⟩
    ⟨{ workspaceRow tenantSpec.id workspaceSpec (sup.now 1) with
      createdAt := d.stamp (sup.now 1).stamp }, ?_, rfl, rfl⟩ hh
    ⟨by simp, ⟨?_, ?_, hs.sealed, trivial⟩, ?_, rfl⟩
    (linked_receipt fun x hx => ?_)
  · rw [(commit_workspace db _ _).1]
    exact List.mem_append_right _ (List.mem_singleton.mpr rfl)
  · rw [hseq]
    exact hs.sequence
  · rw [hhash]
    exact hs.previousHash
  · simp [newHead, advanceHead, StreamHeadRecord.names]
  · obtain ⟨a, ha, hxa⟩ := mem_appendWrites.mp hx
    simp only [List.mem_singleton] at ha
    subst ha
    rw [List.mem_singleton.mp hxa]
    exact .inl rfl

theorem ProvisionCommit.effect {tenantSpec : TenantSpec} {workspaceSpec : WorkspaceSpec}
    {r : ScopeProvisioning} (h : ProvisionCommit rt sup tenantSpec workspaceSpec db ws r)
    (hf : index.Fresh db ws) : Effect rt d db ws := by
  cases h with
  | tenant => exact .tenant _
  | workspace hrow => exact effect_provision hrow hf
  | both hrow =>
    obtain ⟨_, hf₂⟩ := fresh_split (d := d)
      [.addTenant (tenantRow tenantSpec (sup.now 0))] hf
    exact .seq (.tenant _) (effect_provision hrow hf₂)

end Effects

end Lyte
