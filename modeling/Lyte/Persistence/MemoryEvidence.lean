import Lyte.Domain.Dicts
import Lyte.Persistence.BundleAtomicity

/-
  Lyte.Persistence.MemoryEvidence — memory never outgrows its evidence.

  Two writers add memory records: `append_memory` checks a receipt that is there
  with a table of labels, `append_analysis_bundle` writes receipt and memory
  together and checks the linkage on what it flushed.  §2 and §3 say what each
  leaves behind, and every other operation adds no memory at all.

      memory_backed_run    after any run, every memory record has its evidence.
-/

namespace Lyte

open Transact HashChain

variable {rt : Runtime} {d : Dialect} {sup : Supply} {scope : Scope}

/-! ## §1. Evidence. -/

/-- A memory label that the label of a receipt supports. -/
def LabelSupported (memory receipt : PyStr) : Prop :=
  if memory = TruthLabel.measured.value then receipt = TruthLabel.measured.value
  else if memory = TruthLabel.reported.value then
    receipt ∈ [TruthLabel.measured.value, TruthLabel.reported.value]
  else if memory = TruthLabel.modeled.value then
    receipt ∈ [TruthLabel.measured.value, TruthLabel.reported.value, TruthLabel.modeled.value]
  else receipt = memory

/-- The receipt behind a memory record. -/
structure EvidenceOf (rt : Runtime) (scope : Scope) (m : MemoryRecord) (r : ReceiptRecord) :
    Prop where
  memoryScope : m.inScope scope = true
  receiptScope : r.inScope scope = true
  named : m.receiptHash = some r.recordHash
  listed : ∃ refs, m.evidenceRefs = Json.strs refs ∧ r.recordHash ∈ refs
  partitioned : enterpriseMemoryPartition rt scope = .ok m.scopeDigest
  supported : LabelSupported m.truthLabel r.truthLabel

/-- A memory record whose evidence is there. -/
def Backed (rt : Runtime) (db : Db) (m : MemoryRecord) : Prop :=
  ∃ scope, ∃ r ∈ db.receipts, EvidenceOf rt scope m r

/-- Receipts are never removed. -/
theorem Backed.grows {db db' : Db} {m : MemoryRecord} (h : Backed rt db m) (hg : Grows db db') :
    Backed rt db' m := by
  obtain ⟨scope, r, hr, he⟩ := h
  exact ⟨scope, r, hg.receipts.subset hr, he⟩

theorem EvidenceOf.stored {m : MemoryRecord} {r : ReceiptRecord} (h : EvidenceOf rt scope m r) :
    EvidenceOf rt scope (m.stored d) (r.stored d) :=
  ⟨h.memoryScope, h.receiptScope, h.named, h.listed, h.partitioned, h.supported⟩

theorem EvidenceOf.stored_memory {m : MemoryRecord} {r : ReceiptRecord}
    (h : EvidenceOf rt scope m r) : EvidenceOf rt scope (m.stored d) r :=
  ⟨h.memoryScope, h.receiptScope, h.named, h.listed, h.partitioned, h.supported⟩

/-- Equal labels support each other. -/
theorem labelSupported_refl (l : TruthLabel) : LabelSupported l.value l.value := by
  unfold LabelSupported
  cases l <;> simp [TruthLabel.value]

/-- The table of `append_memory` is sound. -/
theorem labelSupported_of_compatible {l : TruthLabel} {receipt : PyStr}
    (h : (compatibleLabels l).contains receipt = true) : LabelSupported l.value receipt := by
  rw [List.contains_iff_mem] at h
  unfold LabelSupported
  cases l with
  | measured =>
    rw [if_pos rfl]
    exact List.mem_singleton.mp h
  | reported =>
    rw [if_neg (by decide), if_pos rfl]
    exact h
  | modeled =>
    rw [if_neg (by decide), if_neg (by decide), if_pos rfl]
    exact h
  | sample =>
    rw [if_neg (by decide), if_neg (by decide), if_neg (by decide)]
    exact List.mem_singleton.mp h
  | roadmap => cases h
  | unavailable => cases h

/-! ## §2. Memory for a receipt that is there. -/

section Memory

variable {draft : MemoryDraft} {receiptHash partitionDigest : PyStr} {at_ : Stamp} {db : Db}

/-- **What the transaction of `append_memory` evaluates to**: one row, and the
receipt that was found for it. -/
theorem eval_memoryBody_ok {m : MemoryRecord} {ws : List Write}
    (hp : enterpriseMemoryPartition rt scope = .ok partitionDigest)
    (h : (appendMemoryBody rt sup scope draft receiptHash partitionDigest at_).eval (engine d) db []
      = .ok (m, ws)) :
    (∃ r ∈ db.receipts, EvidenceOf rt scope m r) ∧
      ∀ m', Write.addRow (.memory m') ∈ ws → m' = m := by
  unfold appendMemoryBody at h
  simp only [Body.bind_eq] at h
  obtain ⟨_, _, ha, h⟩ := eval_bind_ok _ h
  obtain ⟨hrows, _⟩ := eval_assertScope_ok ha
  simp only at hrows
  subst hrows
  rw [eval_select_bind, Engine.view_nil] at h
  cases hfind : findReceipt db scope receiptHash with
  | none =>
    rw [hfind] at h
    cases h
  | some evidence =>
    rw [hfind] at h
    simp only at h
    obtain ⟨hmem, hscope, hhash⟩ := findReceipt_some hfind
    split at h
    · cases h
    · next hlabel =>
      split at h
      · cases h
      · next hrefs =>
        obtain ⟨head, _, hl, h⟩ := eval_bind_ok _ h
        obtain ⟨rfl, _⟩ := eval_lockedHead_ok hl
        obtain ⟨row, _, hx, h⟩ := eval_bind_ok _ h
        obtain ⟨hrow, rfl⟩ := eval_ofExcept_ok _ hx
        obtain ⟨_, pending, hflush, h⟩ := eval_bind_ok _ h
        obtain ⟨hpending, _⟩ := eval_flush_ok _ hflush
        cases h
        have hin := (memoryRow_sealed hrow).sealed.inScope
        obtain ⟨mixin, _, hm⟩ := memoryRow_ok hrow
        simp only [Bool.not_eq_true', Bool.not_eq_false] at hlabel hrefs
        refine ⟨⟨evidence, hmem, hin, hscope, ?_, ⟨draft.evidenceRefs, ?_, ?_⟩, ?_, ?_⟩, ?_⟩
        · rw [hm, hhash]
        · rw [hm]
        · rw [hhash]
          exact List.contains_iff_mem.mp hrefs
        · rw [hm]
          exact hp
        · rw [hm]
          exact labelSupported_of_compatible hlabel
        · intro m' hm'
          rw [hpending] at hm'
          simpa [mem_appendWrites] using hm'

/-- **`append_memory` leaves backed records**, whatever its statements are made
to raise. -/
theorem appendMemory_backed (sup : Supply) (scope : Scope) (draft : MemoryDraft)
    (receiptHash : PyStr) (createdAt : Option Stamp) (faults : List (Option Exn))
    (h : ∀ m ∈ db.memory, Backed rt db m) :
    ∃ r db' fs, (appendMemory rt sup scope draft receiptHash createdAt).exec (engine d)
        (.idle db faults) = (r, .idle db' fs) ∧ ∀ m ∈ db'.memory, Backed rt db' m := by
  unfold appendMemory
  by_cases hhex : (!isSha256Hex receiptHash) = true
  · rw [if_pos hhex]
    exact ⟨_, db, faults, rfl, h⟩
  · rw [if_neg hhex]
    cases hp : enterpriseMemoryPartition rt scope with
    | error e => exact ⟨_, db, faults, rfl, h⟩
    | ok partitionDigest =>
      show ∃ r db' fs, (transaction (appendMemoryBody rt sup scope draft receiptHash partitionDigest
        (createdAt.getD (sup.now 0).stamp))).exec (engine d) (.idle db faults)
          = (r, .idle db' fs) ∧ _
      rcases exec_transaction (engine d) (appendMemoryBody rt sup scope draft receiptHash
        partitionDigest (createdAt.getD (sup.now 0).stamp)) db faults
        with ⟨e, fs, hx⟩ | ⟨row, ws, fs, heval, hx⟩
      · exact ⟨_, db, fs, hx, h⟩
      · refine ⟨_, _, fs, hx, fun m hm => ?_⟩
        obtain ⟨⟨r, hr, he⟩, hnew⟩ := eval_memoryBody_ok hp heval
        have hg := commit_grows d db ws
        rcases mem_memory_commit hm with hm | ⟨m', hm', rfl⟩
        · exact (h m hm).grows hg
        · rw [hnew m' hm']
          exact ⟨scope, r, hg.receipts.subset hr, he.stored_memory⟩

end Memory

/-! ## §3. Memory of a bundle. -/

/-- What `_resolve_analysis_bundle` found to be linked. -/
theorem bundleLinked_ok {receipt : ReceiptRecord} {memory : MemoryRecord}
    {payload metadata : List (PyStr × Json)} {traces : List AnatomyTraceRecord} {digest : PyStr}
    (h : bundleLinked rt scope receipt payload memory metadata traces digest = .ok true) :
    enterpriseMemoryPartition rt scope = .ok memory.scopeDigest ∧
      memory.truthLabel = receipt.truthLabel := by
  unfold bundleLinked at h
  split at h
  · cases h
  split at h
  · cases h
  split at h
  · cases h
  obtain ⟨partitionDigest, hp, h⟩ := ok_of_bind h
  split at h
  · cases h
  · next hscope =>
    split at h
    · cases h
    · next hlabel =>
      rw [hp, not_not.mp hscope]
      exact ⟨rfl, not_not.mp hlabel⟩

section Bundle

variable {receiptDraft : ReceiptDraft} {memoryDraft : MemoryDraft} {traces : List AnatomyTrace}
variable {keyDigest requestDigest partitionDigest : PyStr} {at_ : Stamp} {db : Db}

/-- **The memory of a new bundle has the bundle's receipt as evidence.** -/
theorem NewBundle.evidence {ws : List Write} {rows : BundleRows} {b : AnalysisBundle}
    (hi : StoreInv rt db)
    (hcheck : checkBundleArguments rt scope receiptDraft memoryDraft traces requestDigest = .ok ())
    (h : NewBundle rt d sup scope receiptDraft memoryDraft traces keyDigest requestDigest
      partitionDigest at_ db ws rows b) :
    EvidenceOf rt scope rows.memory rows.receipt := by
  obtain ⟨_, payload, hnames, _, _, hchecked, _⟩ := h.names hi hcheck
  obtain ⟨_, _, _, _, hlinked⟩ := hchecked.linked
  obtain ⟨hpartition, hlabel⟩ := bundleLinked_ok hlinked
  cases h.commit with
  | @mk _ _ _ _ _ _ _ _ _ _ hrows =>
    obtain ⟨_, _, hm, _⟩ := bundleRows_ok hrows
    obtain ⟨_, _, hrow⟩ := memoryRow_ok hm
    refine ⟨hnames.memory.1, hnames.receipt, hnames.memory.2,
      ⟨fromkeys (memoryDraft.evidenceRefs ++ [rows.receipt.recordHash]), ?_, ?_⟩, hpartition, ?_⟩
    · rw [hrow]
    · rw [mem_fromkeys]
      exact List.mem_append_right _ (List.mem_singleton.mpr rfl)
    · rw [← hlabel, hrow]
      exact labelSupported_refl memoryDraft.truthLabel

/-- **`append_analysis_bundle` leaves backed records.** -/
theorem appendAnalysisBundle_backed (sup : Supply) (scope : Scope) (receiptDraft : ReceiptDraft)
    (memoryDraft : MemoryDraft) (traces : List AnatomyTrace) (key requestDigest : PyStr)
    (createdAt : Option Stamp) (hi : StoreInv rt db) (faults : List (Option Exn)) (h : ∀ m ∈ db.memory, Backed rt db m) :
    ∃ r db' fs, (appendAnalysisBundle rt d sup scope receiptDraft memoryDraft traces key
        requestDigest createdAt).exec (engine d) (.idle db faults) = (r, .idle db' fs) ∧
      ∀ m ∈ db'.memory, Backed rt db' m := by
  obtain ⟨r, db', fs, hx, hcases⟩ := appendAnalysisBundle_exec rt d sup scope receiptDraft
    memoryDraft traces key requestDigest createdAt db faults
  refine ⟨r, db', fs, hx, ?_⟩
  rcases hcases with ⟨rfl, _⟩ | ⟨b, ws, rows, rfl, rfl, hcheck, hnew⟩
  · exact h
  · have hadded : BundleAdded db ((engine d).commit db ws) (rows.stored d) := by
      cases hnew.commit
      exact bundleAdded_commit db rows
    intro m hm
    rw [hadded.memory] at hm
    rcases List.mem_append.mp hm with hm | hm
    · exact (h m hm).grows (commit_grows d db ws)
    · rw [List.mem_singleton.mp hm]
      refine ⟨scope, (rows.stored d).receipt, ?_, (hnew.evidence hi hcheck).stored⟩
      rw [hadded.receipts]
      exact List.mem_append_right _ (List.mem_singleton.mpr rfl)

end Bundle

/-! ## §4. Runs. -/

/-- Statements that add no memory record. -/
def NoMemory (_ : Db) (ws : List Write) : Prop := ∀ m, Write.addRow (.memory m) ∉ ws

/-- Tables that others changed without adding memory. -/
theorem env_noMemory {held : List RowLock} {db db' : Db}
    (h : Env (engine d) index NoMemory held db db') : ∀ m ∈ db'.memory, m ∈ db.memory := by
  induction h with
  | refl => exact fun _ hm => hm
  | commit _ hG _ _ ih =>
    intro m hm
    rcases mem_memory_commit hm with hm | ⟨m', hm', _⟩
    · exact ih m hm
    · exact absurd hm' (hG m')

/-- The two writers of memory records. -/
def StoreOp.addsMemory : StoreOp → Bool
  | .appendMemory .. => true
  | .appendAnalysisBundle .. => true
  | _ => false

theorem provisionWrites_noMemory {db : Db} {tenantSpec : TenantSpec}
    {workspaceSpec : WorkspaceSpec} {receipt : ReceiptRecord} {head : StreamHeadRecord} :
    NoMemory db (provisionWrites sup tenantSpec workspaceSpec receipt head) := by
  intro m hm
  simp [provisionWrites, mem_appendWrites] at hm

theorem ProvisionCommit.noMemory {db : Db} {ws : List Write} {tenantSpec : TenantSpec}
    {workspaceSpec : WorkspaceSpec} {r : ScopeProvisioning}
    (h : ProvisionCommit rt sup tenantSpec workspaceSpec db ws r) : NoMemory db ws := by
  cases h with
  | tenant => exact fun m hm => by simp at hm
  | workspace _ => exact provisionWrites_noMemory
  | both _ =>
    intro m hm
    rcases List.mem_cons.mp hm with hm | hm
    · cases hm
    · exact (provisionWrites_noMemory : NoMemory db _) m hm

/-- **No other operation adds memory.** -/
theorem StoreCall.Commits.noMemory {c : StoreCall} {db : Db} {ws : List Write} {r : StoreResult}
    (hop : c.op.addsMemory = false) (h : c.Commits rt db ws r) : NoMemory db ws := by
  cases h with
  | tenant _ => exact fun m hm => by simp at hm
  | workspace _ h =>
    cases h
    exact fun m hm => by simp at hm
  | provisioning _ h =>
    rcases h with h | h
    · exact h.noMemory
    · exact h.noMemory
  | receipt _ _ h =>
    cases h with
    | plain _ _ _ _ => exact fun m hm => by simp [mem_appendWrites] at hm
    | keyed _ _ _ _ _ _ => exact fun m hm => by simp [mem_appendWrites] at hm
  | memory he _ =>
    rw [he] at hop
    cases hop
  | anatomy _ h =>
    cases h
    exact fun m hm => by simp [mem_appendWrites] at hm
  | bundle he _ _ =>
    rw [he] at hop
    cases hop
  | insert _ h =>
    cases h
    exact fun m hm => by simp [mem_appendWrites] at hm
  | upsert _ h =>
    cases h
    exact fun m hm => by simp [mem_appendWrites] at hm
  | batch _ h =>
    cases h
    exact fun m hm => by simp [mem_appendWrites] at hm

/-- The rows after a call, from those after its program. -/
theorem Issued.exec_ret {α : Type} {c : Issued} {p : StoreProg α} {f : α → StoreResult}
    {db db' : Db} {r : Except Exn α} {fs : List (Option Exn)}
    (hp : c.call.prog rt d = p.bind (fun a => .ret (f a)))
    (hx : p.exec (engine d) (.idle db c.faults) = (r, .idle db' fs)) : (c.exec rt d db).2 = db' := by
  unfold Issued.exec
  rw [hp]
  show ((p.bind (fun a => .ret (f a))).exec (engine d) (.idle db c.faults)).2.db = db'
  rw [exec_bind, hx]
  cases r with
  | ok a => rfl
  | error e => rfl

/-- **One call leaves backed records.** -/
theorem Issued.exec_backed (c : Issued) {db : Db} (hi : StoreInv rt db)
    (h : ∀ m ∈ db.memory, Backed rt db m) :
    ∀ m ∈ (c.exec rt d db).2.memory, Backed rt (c.exec rt d db).2 m := by
  cases hop : c.call.op.addsMemory with
  | false =>
    obtain ⟨done, htrail, _⟩ := c.exec_outcome rt d (G := NoMemory) db
      (fun _ _ _ hc _ => hc.noMemory hop) (fun _ m hm => by cases hm)
    intro m hm
    exact (h m (env_noMemory htrail.env m hm)).grows (env_grows htrail.env)
  | true =>
    obtain ⟨⟨op, sup, retry⟩, faults⟩ := c
    cases op with
    | appendMemory scope draft receiptHash createdAt =>
      obtain ⟨r, db', fs, hx, hm⟩ := appendMemory_backed (d := d) sup scope draft receiptHash
        createdAt faults h
      rw [Issued.exec_ret (f := .memory) rfl hx]
      exact hm
    | appendAnalysisBundle scope receiptDraft memoryDraft traces key requestDigest createdAt =>
      obtain ⟨r, db', fs, hx, hm⟩ := appendAnalysisBundle_backed (d := d) sup scope receiptDraft
        memoryDraft traces key requestDigest createdAt hi faults h
      rw [Issued.exec_ret (f := .bundle) rfl hx]
      exact hm
    | _ => cases hop

theorem backed_run (calls : List Issued) {db : Db} (hi : StoreInv rt db)
    (h : ∀ m ∈ db.memory, Backed rt db m) :
    ∀ m ∈ (runCalls rt d db calls).memory, Backed rt (runCalls rt d db calls) m := by
  induction calls generalizing db with
  | nil => exact h
  | cons c calls ih =>
    rw [runCalls_cons]
    exact ih (hi.env (c.exec_env db)) (c.exec_backed hi h)

/-- **Memory never outgrows its evidence**: in every reachable database every
memory record names a receipt of its scope, lists it, lies in the partition of
the scope, and has a label that the receipt's label supports. -/
theorem memory_backed_run (rt : Runtime) (d : Dialect) (calls : List Issued) :
    ∀ m ∈ (runCalls rt d Db.empty calls).memory, Backed rt (runCalls rt d Db.empty calls) m :=
  backed_run calls (storeInv_empty rt) (fun _ hm => by cases hm)

/-- A receipt, and a memory of it. -/
def sampleMemoryRun : List Issued :=
  sampleRun ++ [.plain (.appendMemory sampleScope
    ⟨.observation, py "note", .sample, [receiptHash], [], [], .empty, List.nodup_nil⟩ receiptHash
    none) "d"]
where
  receiptHash : PyStr :=
    ((runCalls .ascii .sqlite Db.empty sampleRun).receipts.map (fun r => r.recordHash)).headD []

theorem memory_backed_run_sample :
    ∃ m ∈ (runCalls .ascii .sqlite Db.empty sampleMemoryRun).memory,
      Backed .ascii (runCalls .ascii .sqlite Db.empty sampleMemoryRun) m := by
  have hone : 0 < (runCalls .ascii .sqlite Db.empty sampleMemoryRun).memory.length := by
    decide +kernel
  obtain ⟨m, hm⟩ := List.exists_mem_of_length_pos hone
  exact ⟨m, hm, memory_backed_run .ascii .sqlite sampleMemoryRun m hm⟩

end Lyte
