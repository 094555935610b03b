import Lyte.Lib.LockOrder
import Lyte.Persistence.Runs

/-
  Lyte.Persistence.LockOrder — the store's writers do not deadlock.

  The order in which every transaction of the store asks for its rows:

      tenant < workspace < latest operational version < stream heads,

  the heads in the order of `STREAM_KINDS`.  Each transaction body asks for at
  most one row of each rank and goes upwards (§2, one lemma for each of them);
  `Lib/LockOrder.lean` turns this into the absence of waiting circles.
-/

namespace Lyte

open Transact

/-! ## §1. The order. -/

/-- The position of a row in the lock order; a head is placed by its stream. -/
def lockRank : RowLock → Nat
  | .tenant _ => 0
  | .workspace _ => 1
  | .operational _ => 2
  | .head _ _ streamKind => 3 + streamKinds.findIdx (fun k => k.value == streamKind)

@[simp] theorem lockRank_headLock (scope : Scope) (k : StreamKind) :
    lockRank (headLock scope k) = 3 + k.ordinal := by
  show 3 + streamKinds.findIdx (fun s => s.value == k.value) = 3 + k.ordinal
  cases k <;> decide

/-- A body that locks upwards from `held`, and may end with any locks. -/
abbrev Upwards {α : Type} (b : StoreBody α) (held : List RowLock) : Prop :=
  b.Ascends lockRank held (fun _ _ => True)

variable {α : Type} {Q : α → List RowLock → Prop} {held : List RowLock}

theorem ascends_assertScope (scope : Scope) {Q : Unit → List RowLock → Prop} (h : Q () held) :
    (assertScope scope).Ascends lockRank held Q := by
  refine Body.ascends_bind (Body.ascends_select (fun v => ?_))
  show Body.Ascends lockRank (if _ then _ else _) held Q
  split
  · exact h
  · trivial

/-- A head is locked behind rows of lower rank. -/
theorem ascends_lockedHead (scope : Scope) (k : StreamKind)
    {Q : StreamHeadRecord → List RowLock → Prop}
    (hbelow : ∀ l ∈ held, lockRank l < 3 + k.ordinal)
    (h : ∀ head, Q head (headLock scope k :: held)) :
    (lockedHead scope k).Ascends lockRank held Q := by
  refine Body.ascends_bind (Body.ascends_selectForUpdate (fun v => ?_))
  cases headOf v scope k with
  | none => exact ⟨above_nil_left lockRank held, trivial⟩
  | some head =>
    refine ⟨?_, h head⟩
    intro l hl l' hl'
    rw [Option.map_some, Option.toList_some, List.mem_singleton] at hl
    rw [hl, lockRank_headLock]
    exact hbelow l' hl'

/-! ## §2. The transactions. -/

section Bodies

variable (rt : Runtime) (d : Dialect) (sup : Supply)

theorem upwards_resolveIdempotentReceipt (scope : Scope) (record : IdempotencyRecord)
    (requestDigest : PyStr) : Upwards (resolveIdempotentReceipt scope record requestDigest) held := by
  unfold resolveIdempotentReceipt
  split
  · trivial
  · refine Body.ascends_bind (Body.ascends_select (fun v => ?_))
    cases findReceipt v scope record.responseReceiptHash <;> trivial

theorem upwards_appendReceiptRows (scope : Scope) (draft : ReceiptDraft)
    (keyDigest : Option PyStr) (requestDigest : PyStr) (at_ : Stamp) :
    Upwards (appendReceiptRows rt sup scope draft keyDigest requestDigest at_) [] := by
  refine Body.ascends_bind (ascends_lockedHead scope .receipts (by simp) (fun head => ?_))
  refine Body.ascends_bind (Body.ascends_ofExcept (fun receipt => ?_))
  cases keyDigest with
  | none => exact Body.ascends_bind (Body.ascends_flush trivial)
  | some keyDigest =>
    -- the key is recorded under a second head
    refine Body.ascends_bind (ascends_lockedHead scope .idempotency ?_ (fun head => ?_))
    · simp [StreamKind.ordinal]
    · refine Body.ascends_bind (Body.ascends_ofExcept (fun row => ?_))
      exact Body.ascends_bind (Body.ascends_flush trivial)

theorem upwards_appendReceiptBody (scope : Scope) (draft : ReceiptDraft)
    (keyDigest : Option PyStr) (requestDigest : PyStr) (at_ : Stamp) :
    Upwards (appendReceiptBody rt sup scope draft keyDigest requestDigest at_) [] := by
  refine Body.ascends_bind (ascends_assertScope scope ?_)
  cases keyDigest with
  | none => exact upwards_appendReceiptRows rt sup scope draft none requestDigest at_
  | some kd =>
    refine Body.ascends_bind (Body.ascends_select (fun v => ?_))
    cases findIdempotency v scope kd with
    | some record => exact upwards_resolveIdempotentReceipt scope record requestDigest
    | none => exact upwards_appendReceiptRows rt sup scope draft (some kd) requestDigest at_

theorem upwards_recoverReceipt (scope : Scope) (keyDigest : Option PyStr) (requestDigest : PyStr) :
    Upwards (recoverReceipt scope keyDigest requestDigest) [] := by
  cases keyDigest with
  | none => trivial
  | some kd =>
    refine Body.ascends_bind (Body.ascends_select (fun v => ?_))
    cases findIdempotency v scope kd with
    | some record => exact upwards_resolveIdempotentReceipt scope record requestDigest
    | none => trivial

theorem upwards_appendMemoryBody (scope : Scope) (draft : MemoryDraft)
    (receiptHash partitionDigest : PyStr) (at_ : Stamp) :
    Upwards (appendMemoryBody rt sup scope draft receiptHash partitionDigest at_) [] := by
  refine Body.ascends_bind (ascends_assertScope scope ?_)
  refine Body.ascends_bind (Body.ascends_select (fun v => ?_))
  cases findReceipt v scope receiptHash with
  | none => trivial
  | some evidence =>
    show Body.Ascends lockRank (if _ then _ else if _ then _ else _) [] _
    split
    · trivial
    · split
      · trivial
      · refine Body.ascends_bind (ascends_lockedHead scope .memory (by simp) (fun head => ?_))
        refine Body.ascends_bind (Body.ascends_ofExcept (fun row => ?_))
        exact Body.ascends_bind (Body.ascends_flush trivial)

theorem upwards_appendAnatomyTraceBody (trace : AnatomyTrace) (at_ : Stamp) :
    Upwards (appendAnatomyTraceBody rt sup trace at_) [] := by
  refine Body.ascends_bind (ascends_assertScope trace.scope ?_)
  refine Body.ascends_bind (ascends_lockedHead trace.scope .anatomy (by simp) (fun head => ?_))
  refine Body.ascends_bind (Body.ascends_ofExcept (fun row => ?_))
  exact Body.ascends_bind (Body.ascends_flush trivial)

theorem upwards_resolveAnalysisBundle (scope : Scope) (record : IdempotencyRecord)
    (requestDigest : PyStr) (replay : Bool) :
    Upwards (resolveAnalysisBundle rt d sup scope record requestDigest replay) held := by
  refine Body.ascends_bind (Body.ascends_ofExcept (fun _ => ?_))
  refine Body.ascends_bind ?_
  refine (upwards_resolveIdempotentReceipt scope record requestDigest).imp (fun receipt held' _ => ?_)
  refine Body.ascends_bind (Body.ascends_ofExcept (fun _ => ?_))
  refine Body.ascends_bind (Body.ascends_ofExcept (fun payload => ?_))
  refine Body.ascends_bind (Body.ascends_select (fun v => ?_))
  refine Body.ascends_bind (Body.ascends_select (fun v => ?_))
  exact Body.ascends_ofExcept (fun _ => trivial)

/-- The four heads of a bundle, in the order of `STREAM_KINDS`. -/
theorem upwards_appendAnalysisBundleBody (scope : Scope) (receiptDraft : ReceiptDraft)
    (memoryDraft : MemoryDraft) (traces : List AnatomyTrace)
    (keyDigest requestDigest partitionDigest : PyStr) (at_ : Stamp) :
    Upwards (appendAnalysisBundleBody rt d sup scope receiptDraft memoryDraft traces keyDigest
      requestDigest partitionDigest at_) [] := by
  refine Body.ascends_bind (ascends_assertScope scope ?_)
  refine Body.ascends_bind (Body.ascends_select (fun v => ?_))
  cases findIdempotency v scope keyDigest with
  | some record => exact upwards_resolveAnalysisBundle rt d sup scope record requestDigest true
  | none =>
    refine Body.ascends_bind (ascends_lockedHead scope .receipts (by simp) (fun receiptHead => ?_))
    refine Body.ascends_bind (ascends_lockedHead scope .idempotency
      (by simp [StreamKind.ordinal]) (fun idempotencyHead => ?_))
    refine Body.ascends_bind (ascends_lockedHead scope .memory
      (by simp [StreamKind.ordinal]) (fun memoryHead => ?_))
    refine Body.ascends_bind (ascends_lockedHead scope .anatomy
      (by simp [StreamKind.ordinal]) (fun anatomyHead => ?_))
    refine Body.ascends_bind (Body.ascends_select (fun v => ?_))
    cases findIdempotency v scope keyDigest with
    | some record => exact upwards_resolveAnalysisBundle rt d sup scope record requestDigest true
    | none =>
      refine Body.ascends_bind (Body.ascends_ofExcept (fun rows => ?_))
      refine Body.ascends_bind (Body.ascends_flush ?_)
      exact upwards_resolveAnalysisBundle rt d sup scope rows.idempotency requestDigest false

theorem upwards_recoverBundle (scope : Scope) (keyDigest requestDigest : PyStr) :
    Upwards (recoverBundle rt d sup scope keyDigest requestDigest) [] := by
  refine Body.ascends_bind (Body.ascends_select (fun v => ?_))
  cases findIdempotency v scope keyDigest with
  | some record => exact upwards_resolveAnalysisBundle rt d sup scope record requestDigest true
  | none => trivial

/-- The latest version of the entity is locked before the head of its stream. -/
theorem upwards_writeOperationalBody (scope : Scope) (draft : OperationalRecordDraft)
    (insertOnly : Bool) (expectedVersion : Option Int) (at_ : Stamp) :
    Upwards (writeOperationalBody rt sup scope draft insertOnly expectedVersion at_) [] := by
  refine Body.ascends_bind (ascends_assertScope scope ?_)
  refine Body.ascends_bind (Body.ascends_selectForUpdate (fun v => ⟨above_nil_right lockRank _, ?_⟩))
  show Body.Ascends lockRank (if _ then _ else if _ then _ else _) _ _
  split
  · trivial
  · split
    · trivial
    · refine Body.ascends_bind (ascends_lockedHead scope .operational ?_ (fun head => ?_))
      · intro l hl
        simp only [List.append_nil, Option.mem_toList, Option.map_eq_some_iff] at hl
        obtain ⟨r, _, rfl⟩ := hl
        show 2 < 3 + 4
        decide
      · refine Body.ascends_bind (Body.ascends_ofExcept (fun row => ?_))
        exact Body.ascends_bind (Body.ascends_flush trivial)

theorem ascends_batchLoop (scope : Scope) (at_ : Stamp) (drafts : List OperationalRecordDraft)
    (head : StreamHeadRecord) (written : List OperationalRecord)
    {Q : StreamHeadRecord × List OperationalRecord → List RowLock → Prop} (h : ∀ x, Q x held) :
    (batchLoop rt sup scope at_ drafts head written).Ascends lockRank held Q := by
  induction drafts generalizing head written with
  | nil => exact h _
  | cons draft drafts ih =>
    refine Body.ascends_bind (Body.ascends_select (fun v => ?_))
    show Body.Ascends lockRank (if _ then _ else _) held Q
    split
    · exact ih head written
    · exact Body.ascends_bind (Body.ascends_ofExcept (fun row => ih _ _))

theorem upwards_upsertOperationalBatchBody (scope : Scope)
    (drafts : List OperationalRecordDraft) (at_ : Stamp) :
    Upwards (upsertOperationalBatchBody rt sup scope drafts at_) [] := by
  refine Body.ascends_bind (ascends_assertScope scope ?_)
  refine Body.ascends_bind (ascends_lockedHead scope .operational (by simp) (fun head => ?_))
  refine Body.ascends_bind (ascends_batchLoop rt sup scope at_ drafts head [] (fun x => ?_))
  show Body.Ascends lockRank (if _ then _ else _) _ _
  split
  · trivial
  · exact Body.ascends_bind (Body.ascends_flush trivial)

theorem upwards_createWorkspaceBody (spec : WorkspaceSpec) :
    Upwards (createWorkspaceBody sup spec) [] := by
  refine Body.ascends_bind (Body.ascends_select (fun v => ?_))
  show Body.Ascends lockRank (if _ then _ else _) [] _
  split
  · trivial
  · refine Body.ascends_bind (Body.ascends_flush ?_)
    exact Body.ascends_bind (Body.ascends_flush trivial)

/-- The tenant is the first row locked. -/
theorem ascends_provisionTenant (tenantSpec : TenantSpec)
    {Q : TenantRecord × Bool → List RowLock → Prop}
    (h : ∀ x locks, (∀ l ∈ locks, lockRank l = 0) → Q x locks) :
    (provisionTenant sup tenantSpec).Ascends lockRank [] Q := by
  refine Body.ascends_bind (Body.ascends_selectForUpdate (fun v => ⟨above_nil_right lockRank _, ?_⟩))
  cases findTenant v tenantSpec.id with
  | none => exact Body.ascends_bind (Body.ascends_flush (h _ _ (by simp)))
  | some tenant =>
    show Body.Ascends lockRank (if _ then _ else _) _ _
    split
    · trivial
    · exact h _ _ (by simp [lockRank])

/-- The workspace is locked behind the tenant, and before the head of the receipts. -/
theorem upwards_provisionWorkspace (tenant : TenantRecord) (tenantSpec : TenantSpec)
    (workspaceSpec : WorkspaceSpec) (hheld : ∀ l ∈ held, lockRank l = 0) :
    Upwards (provisionWorkspace rt d sup tenant tenantSpec workspaceSpec) held := by
  refine Body.ascends_bind (Body.ascends_selectForUpdate (fun v => ?_))
  cases findWorkspace v workspaceSpec.id with
  | none =>
    refine ⟨above_nil_left lockRank held, ?_⟩
    refine Body.ascends_bind (Body.ascends_flush ?_)
    refine Body.ascends_bind (Body.ascends_flush ?_)
    refine Body.ascends_bind (Body.ascends_bind
      (ascends_lockedHead ⟨tenantSpec.id, workspaceSpec.id⟩ .receipts ?_ (fun head => ?_)))
    · intro l hl
      rw [hheld l hl]
      exact Nat.zero_lt_succ _
    · refine Body.ascends_bind (Body.ascends_ofExcept (fun receipt => ?_))
      exact Body.ascends_bind (Body.ascends_flush trivial)
  | some workspace =>
    refine ⟨?_, ?_⟩
    · intro l hl l' hl'
      rw [Option.map_some, Option.toList_some, List.mem_singleton] at hl
      rw [hl, hheld l' hl']
      exact Nat.one_pos
    · refine Body.ascends_bind (Body.ascends_select (fun v => ?_))
      refine Body.ascends_bind (Body.ascends_ofExcept (fun _ => ?_))
      refine Body.ascends_bind (Body.ascends_select (fun v => ?_))
      exact Body.ascends_bind (Body.ascends_ofExcept (fun _ => trivial))

theorem upwards_verifyChainBody (scope : Scope) (k : StreamKind) :
    Upwards (verifyChainBody rt scope k) [] := by
  refine Body.ascends_bind (ascends_assertScope scope ?_)
  refine Body.ascends_bind (Body.ascends_select (fun v => ?_))
  refine Body.ascends_bind (Body.ascends_ofExcept (fun x => ?_))
  obtain ⟨expectedPrevious, error⟩ := x
  cases error with
  | some message => trivial
  | none => exact Body.ascends_bind (ascends_lockedHead scope k (by simp) (fun head => trivial))

end Bodies

/-! ## §3. The calls. -/

/-- A call that may lock rows: one of the store's writers, or `verify_chain`. -/
inductive LockingCall where
  | store (c : StoreCall)
  | verifyChain (scope : Scope) (k : StreamKind)

def LockingCall.prog (rt : Runtime) (d : Dialect) :
    LockingCall → StoreProg (StoreResult ⊕ ChainVerification)
  | .store c => (c.prog rt d).bind (fun r => .ret (.inl r))
  | .verifyChain scope k => (Lyte.verifyChain rt scope k).bind (fun r => .ret (.inr r))

section Calls

variable (rt : Runtime) (d : Dialect)

theorem ascends_appendReceipt (sup : Supply) (scope : Scope) (draft : ReceiptDraft)
    (key : Option PyStr) (createdAt : Option Stamp) :
    (appendReceipt rt sup scope draft key createdAt).Ascends lockRank [] := by
  refine (Prog.ascends_ofExcept _).bind (fun requestDigest => ?_)
  refine (Prog.ascends_ofExcept _).bind (fun keyDigest => ?_)
  refine (ascends_transaction (upwards_appendReceiptBody rt sup scope draft _ _ _)).tryCatch
    (fun e => ?_)
  split
  · exact ascends_readSession (upwards_recoverReceipt scope _ requestDigest)
  · exact rfl

theorem ascends_appendMemory (sup : Supply) (scope : Scope) (draft : MemoryDraft)
    (receiptHash : PyStr) (createdAt : Option Stamp) :
    (appendMemory rt sup scope draft receiptHash createdAt).Ascends lockRank [] := by
  unfold appendMemory
  dsimp only
  split
  · exact rfl
  · refine (Prog.ascends_ofExcept _).bind (fun partitionDigest => ?_)
    exact ascends_transaction (upwards_appendMemoryBody rt sup scope draft receiptHash _ _)

theorem ascends_appendAnalysisBundle (sup : Supply) (scope : Scope) (receiptDraft : ReceiptDraft)
    (memoryDraft : MemoryDraft) (traces : List AnatomyTrace) (key requestDigest : PyStr)
    (createdAt : Option Stamp) :
    (appendAnalysisBundle rt d sup scope receiptDraft memoryDraft traces key requestDigest
      createdAt).Ascends lockRank [] := by
  refine (Prog.ascends_ofExcept _).bind (fun _ => ?_)
  refine (Prog.ascends_ofExcept _).bind (fun keyDigest => ?_)
  refine (Prog.ascends_ofExcept _).bind (fun partitionDigest => ?_)
  refine (ascends_transaction (upwards_appendAnalysisBundleBody rt d sup scope receiptDraft
    memoryDraft traces keyDigest requestDigest partitionDigest _)).tryCatch (fun e => ?_)
  unfold bundleRecovery
  split
  · refine (ascends_readSession (upwards_recoverBundle rt d sup scope keyDigest
      requestDigest)).tryCatch (fun e' => ?_)
    split <;> exact rfl
  · split <;> exact rfl

theorem ascends_writeOperational (sup : Supply) (scope : Scope) (draft : OperationalRecordDraft)
    (insertOnly : Bool) (expectedVersion : Option Int) (createdAt : Option Stamp) :
    (writeOperational rt sup scope draft insertOnly expectedVersion createdAt).Ascends
      lockRank [] := by
  refine (ascends_transaction (upwards_writeOperationalBody rt sup scope draft insertOnly
    expectedVersion _)).tryCatch (fun e => ?_)
  split <;> exact rfl

theorem ascends_upsertOperationalBatch (sup : Supply) (scope : Scope)
    (drafts : List OperationalRecordDraft) (createdAt : Option Stamp) :
    (upsertOperationalBatch rt sup scope drafts createdAt).Ascends lockRank [] := by
  unfold upsertOperationalBatch
  split
  · exact rfl
  · split
    · exact rfl
    · refine (ascends_transaction (upwards_upsertOperationalBatchBody rt sup scope drafts
        _)).tryCatch (fun e => ?_)
      split <;> exact rfl

theorem ascends_provisionScopeOnce (sup : Supply) (tenantSpec : TenantSpec)
    (workspaceSpec : WorkspaceSpec) :
    (provisionScopeOnce rt d sup tenantSpec workspaceSpec).Ascends lockRank [] := by
  unfold provisionScopeOnce
  split
  · exact rfl
  · refine ascends_transaction (Body.ascends_bind (ascends_provisionTenant sup tenantSpec ?_))
    intro x locks hlocks
    refine Body.ascends_bind ?_
    exact (upwards_provisionWorkspace rt d sup x.1 tenantSpec workspaceSpec hlocks).imp
      (fun _ _ _ => trivial)

theorem ascends_readProvisionedScope (tenantSpec : TenantSpec) (workspaceSpec : WorkspaceSpec) :
    (readProvisionedScope rt d tenantSpec workspaceSpec).Ascends lockRank [] := by
  refine ascends_readSession (Body.ascends_bind (Body.ascends_select (fun v => ?_)))
  refine Body.ascends_bind (Body.ascends_select (fun v => ?_))
  refine Body.ascends_bind (Body.ascends_select (fun v => ?_))
  refine Body.ascends_bind (Body.ascends_ofExcept (fun _ => ?_))
  refine Body.ascends_bind (Body.ascends_select (fun v => ?_))
  exact Body.ascends_bind (Body.ascends_ofExcept (fun _ => trivial))

theorem ascends_retryableMissingWorkspace (tenantSpec : TenantSpec)
    (workspaceSpec : WorkspaceSpec) :
    (retryableMissingWorkspace tenantSpec workspaceSpec).Ascends lockRank [] := by
  refine ascends_readSession (Body.ascends_bind (Body.ascends_select (fun v => ?_)))
  show Body.Ascends lockRank (if _ then _ else _) [] _
  split
  · trivial
  · refine Body.ascends_bind (Body.ascends_select (fun v => ?_))
    show Body.Ascends lockRank (if _ then _ else _) [] _
    split
    · trivial
    · exact Body.ascends_bind (Body.ascends_select (fun v => trivial))

/-- One round of the loop, whatever follows a conflict. -/
theorem ascends_provisionAttempt (sup : Supply) (tenantSpec : TenantSpec)
    (workspaceSpec : WorkspaceSpec) {onConflict : Exn → StoreProg ScopeProvisioning}
    (h : ∀ e, (onConflict e).Ascends lockRank []) :
    (provisionAttempt rt d sup tenantSpec workspaceSpec onConflict).Ascends lockRank [] := by
  refine (ascends_provisionScopeOnce rt d sup tenantSpec workspaceSpec).tryCatch (fun e => ?_)
  split
  · refine (ascends_readProvisionedScope rt d tenantSpec workspaceSpec).tryCatch (fun e' => ?_)
    split
    · exact h e'
    · exact rfl
  · exact rfl

theorem ascends_provisionScope (sup sup' : Supply) (tenantSpec : TenantSpec)
    (workspaceSpec : WorkspaceSpec) :
    (provisionScope rt d sup sup' tenantSpec workspaceSpec).Ascends lockRank [] := by
  refine ascends_provisionAttempt rt d sup tenantSpec workspaceSpec (fun e => ?_)
  refine (ascends_retryableMissingWorkspace tenantSpec workspaceSpec).bind (fun retryable => ?_)
  split
  · exact ascends_provisionAttempt rt d sup' tenantSpec workspaceSpec (fun _ => rfl)
  · exact rfl

theorem StoreCall.ascends (c : StoreCall) : (c.prog rt d).Ascends lockRank [] := by
  obtain ⟨op, sup, retry⟩ := c
  cases op with
  | createTenant spec =>
    refine Prog.Ascends.bind (ascends_transaction ?_) (fun _ => rfl)
    exact Body.ascends_bind (Body.ascends_flush trivial)
  | createWorkspace spec =>
    exact (ascends_transaction (upwards_createWorkspaceBody sup spec)).bind (fun _ => rfl)
  | provisionScope tenantSpec workspaceSpec =>
    exact (ascends_provisionScope rt d sup retry tenantSpec workspaceSpec).bind (fun _ => rfl)
  | appendReceipt scope draft key createdAt =>
    exact (ascends_appendReceipt rt sup scope draft key createdAt).bind (fun _ => rfl)
  | appendMemory scope draft receiptHash createdAt =>
    exact (ascends_appendMemory rt sup scope draft receiptHash createdAt).bind (fun _ => rfl)
  | appendAnatomyTrace trace createdAt =>
    exact (ascends_transaction (upwards_appendAnatomyTraceBody rt sup trace _)).bind (fun _ => rfl)
  | appendAnalysisBundle scope receiptDraft memoryDraft traces key requestDigest createdAt =>
    exact (ascends_appendAnalysisBundle rt d sup scope receiptDraft memoryDraft traces key
      requestDigest createdAt).bind (fun _ => rfl)
  | insertOperational scope draft createdAt =>
    exact (ascends_writeOperational rt sup scope draft true (some 0) createdAt).bind (fun _ => rfl)
  | upsertOperational scope draft expectedVersion createdAt =>
    refine Prog.Ascends.bind ?_ (fun _ => rfl)
    unfold upsertOperational
    split
    · exact rfl
    · exact ascends_writeOperational rt sup scope draft false expectedVersion createdAt
  | upsertOperationalBatch scope drafts createdAt =>
    exact (ascends_upsertOperationalBatch rt sup scope drafts createdAt).bind (fun _ => rfl)

theorem LockingCall.ascends (x : LockingCall) : (x.prog rt d).Ascends lockRank [] := by
  cases x with
  | store c => exact (StoreCall.ascends rt d c).bind (fun _ => rfl)
  | verifyChain scope k =>
    exact (ascends_readSession (upwards_verifyChainBody rt scope k)).bind (fun _ => rfl)

end Calls

/-! ## §4. No deadlock. -/

/-- **Writers never deadlock**: whatever rows are there, whichever calls run at
once on whatever workspaces, and whichever of their statements raise, no call
ever waits for itself through the locks of others. -/
theorem writers_never_deadlock {ι : Type} [DecidableEq ι] (rt : Runtime) (d : Dialect)
    (F : Exn → Prop) (db : Db) (calls : ι → LockingCall)
    {c : Config Db Write RowLock Exn (StoreResult ⊕ ChainVerification) ι}
    (hreach : Reach (engine d) index F (Config.start db (fun i => (calls i).prog rt d)) c) (i : ι) :
    ¬ Relation.TransGen (c.WaitsFor (engine d)) i i := by
  have hstart : (Config.start db (fun i => (calls i).prog rt d)).Ordered lockRank :=
    Config.Ordered.start (fun i => LockingCall.ascends rt d (calls i))
  exact (reach_ascends hstart hreach).no_wait_cycle i

/-- A workspace with an empty stream of receipts. -/
def emptyStream (scope : Scope) : Db := { Db.empty with
  workspaces := [⟨scope.workspaceId.text, scope.tenantId.text, [], [], sampleInstant.stamp⟩]
  heads := [⟨scope.tenantId.text, scope.workspaceId.text, StreamKind.receipts.value, 0, none,
    sampleInstant.stamp⟩] }

/-- Two verifications of one stream: the second waits for the head the first has
locked, and for nothing else. -/
theorem writers_never_deadlock_waiting :
    ∃ c : Config Db Write RowLock Exn (StoreResult ⊕ ChainVerification) Bool,
      Reach (engine .sqlite) index (fun _ => False)
        (Config.start (emptyStream sampleScope)
          (fun _ => (LockingCall.verifyChain sampleScope .receipts).prog .ascii .sqlite)) c ∧
      c.WaitsFor (engine .sqlite) false true ∧
      ∀ i, ¬ Relation.TransGen (c.WaitsFor (engine .sqlite)) i i := by
  let start : Config Db Write RowLock Exn (StoreResult ⊕ ChainVerification) Bool :=
    Config.start (emptyStream sampleScope)
      (fun _ => (LockingCall.verifyChain sampleScope .receipts).prog .ascii .sqlite)
  have hstart : Reach (engine .sqlite) index (fun _ => False) start start := .refl
  -- one call selects the workspace and the rows, then locks the head
  have hlocked := ((hstart.step (Step.select (i := true) rfl)).step
    (Step.select (i := true) rfl)).step (Step.lock (i := true) rfl (by
      intro j hj l _
      obtain rfl : j = false := by simpa using hj
      exact List.not_mem_nil))
  -- the other comes as far as the lock
  have hreach := (hlocked.step (Step.select (i := false) rfl)).step (Step.select (i := false) rfl)
  refine ⟨_, hreach, ⟨headLock sampleScope .receipts, by decide, ?_, ?_⟩,
    writers_never_deadlock .ascii .sqlite (fun _ => False) _ _ hreach⟩
  · exact List.mem_cons_self
  · exact ⟨_, _, _, emptyStream sampleScope, rfl, rfl⟩

end Lyte
