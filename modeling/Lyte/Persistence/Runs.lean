import Lyte.Persistence.BundleContract

/-
  Lyte.Persistence.Runs — calls of the store, and runs of them.

  `StoreOp` has one constructor for each operation, so that a run of the store
  is a list of calls and a concurrent execution a family of them.  The contracts
  of the operations (`Persistence/Contracts.lean`) are put together into one:

      StoreCall.sat    a call fails without effect, returns what is there, or
                       commits once, as `StoreCall.Commits` describes.

  From it a run (`runCalls`, one call after the other, each under its own fault
  plan) only ever moves the database by effects of the store.
-/

namespace Lyte

open Transact HashChain

/-! ## §1. Calls. -/

/-- The operations of the store that write, with their arguments. -/
inductive StoreOp where
  | createTenant (spec : TenantSpec)
  | createWorkspace (spec : WorkspaceSpec)
  | provisionScope (tenantSpec : TenantSpec) (workspaceSpec : WorkspaceSpec)
  | appendReceipt (scope : Scope) (draft : ReceiptDraft) (key : Option PyStr)
      (createdAt : Option Stamp)
  | appendMemory (scope : Scope) (draft : MemoryDraft) (receiptHash : PyStr)
      (createdAt : Option Stamp)
  | appendAnatomyTrace (trace : AnatomyTrace) (createdAt : Option Stamp)
  | appendAnalysisBundle (scope : Scope) (receiptDraft : ReceiptDraft) (memoryDraft : MemoryDraft)
      (traces : List AnatomyTrace) (key requestDigest : PyStr) (createdAt : Option Stamp)
  | insertOperational (scope : Scope) (draft : OperationalRecordDraft) (createdAt : Option Stamp)
  | upsertOperational (scope : Scope) (draft : OperationalRecordDraft)
      (expectedVersion : Option Int) (createdAt : Option Stamp)
  | upsertOperationalBatch (scope : Scope) (drafts : List OperationalRecordDraft)
      (createdAt : Option Stamp)

/-- What they return. -/
inductive StoreResult where
  | tenant (r : TenantRecord)
  | workspace (r : WorkspaceRecord)
  | provisioning (r : ScopeProvisioning)
  | receipt (r : ReceiptRecord)
  | memory (r : MemoryRecord)
  | anatomy (r : AnatomyTraceRecord)
  | bundle (r : AnalysisBundle)
  | operational (r : OperationalRecord)
  | batch (rs : List OperationalRecord)

/-- An operation, and what it draws from outside; `retry` is for the second
attempt of `provision_scope`. -/
structure StoreCall where
  op : StoreOp
  sup : Supply
  retry : Supply

/-- The call as a program. -/
def StoreCall.prog (rt : Runtime) (d : Dialect) (c : StoreCall) : StoreProg StoreResult :=
  match c.op with
  | .createTenant spec => (createTenant c.sup spec).bind (fun r => .ret (.tenant r))
  | .createWorkspace spec => (createWorkspace c.sup spec).bind (fun r => .ret (.workspace r))
  | .provisionScope tenantSpec workspaceSpec =>
      (provisionScope rt d c.sup c.retry tenantSpec workspaceSpec).bind
        (fun r => .ret (.provisioning r))
  | .appendReceipt scope draft key createdAt =>
      (appendReceipt rt c.sup scope draft key createdAt).bind (fun r => .ret (.receipt r))
  | .appendMemory scope draft receiptHash createdAt =>
      (appendMemory rt c.sup scope draft receiptHash createdAt).bind (fun r => .ret (.memory r))
  | .appendAnatomyTrace trace createdAt =>
      (appendAnatomyTrace rt c.sup trace createdAt).bind (fun r => .ret (.anatomy r))
  | .appendAnalysisBundle scope receiptDraft memoryDraft traces key requestDigest createdAt =>
      (appendAnalysisBundle rt d c.sup scope receiptDraft memoryDraft traces key requestDigest
        createdAt).bind (fun r => .ret (.bundle r))
  | .insertOperational scope draft createdAt =>
      (insertOperational rt c.sup scope draft createdAt).bind (fun r => .ret (.operational r))
  | .upsertOperational scope draft expectedVersion createdAt =>
      (upsertOperational rt c.sup scope draft expectedVersion createdAt).bind
        (fun r => .ret (.operational r))
  | .upsertOperationalBatch scope drafts createdAt =>
      (upsertOperationalBatch rt c.sup scope drafts createdAt).bind (fun r => .ret (.batch r))

/-- The time a call writes at. -/
def StoreCall.at_ (c : StoreCall) (createdAt : Option Stamp) : Stamp :=
  createdAt.getD (c.sup.now 0).stamp

/-! ## §2. The contract of a call. -/

/-- **What a call may commit**, on the committed rows `db`, and what it then
returns. -/
inductive StoreCall.Commits (rt : Runtime) (c : StoreCall) (db : Db) :
    List Write → StoreResult → Prop
  | tenant {spec r} : c.op = .createTenant spec →
      Commits rt c db [.addTenant (tenantRow spec (c.sup.now 0))] (.tenant r)
  | workspace {spec ws r} : c.op = .createWorkspace spec → WorkspaceCommit c.sup spec db ws r →
      Commits rt c db ws (.workspace r)
  | provisioning {tenantSpec workspaceSpec ws r} : c.op = .provisionScope tenantSpec workspaceSpec →
      Provisioned rt c.sup c.retry tenantSpec workspaceSpec db ws r →
      Commits rt c db ws (.provisioning r)
  | receipt {scope draft key createdAt ws r} : c.op = .appendReceipt scope draft key createdAt →
      KeyOk rt scope key → ReceiptCommit rt c.sup scope draft (keyDigestOf rt scope key) (requestDigestOf rt draft)
        (c.at_ createdAt) db ws r → Commits rt c db ws (.receipt r)
  | memory {scope draft receiptHash createdAt ws r} :
      c.op = .appendMemory scope draft receiptHash createdAt →
      MemoryCommit rt c.sup scope draft receiptHash (partitionDigestOf rt scope) (c.at_ createdAt)
        db ws r → Commits rt c db ws (.memory r)
  | anatomy {trace createdAt ws r} : c.op = .appendAnatomyTrace trace createdAt →
      AnatomyCommit rt c.sup trace (c.at_ createdAt) db ws r → Commits rt c db ws (.anatomy r)
  | bundle {scope receiptDraft memoryDraft traces key requestDigest createdAt ws b} :
      c.op = .appendAnalysisBundle scope receiptDraft memoryDraft traces key requestDigest
        createdAt → KeyOk rt scope (some key) →
      BundleCommitted rt c.sup scope receiptDraft memoryDraft traces (bundleKeyOf rt scope key)
        requestDigest (partitionDigestOf rt scope) (c.at_ createdAt) db ws b →
      Commits rt c db ws (.bundle b)
  | insert {scope draft createdAt ws r} : c.op = .insertOperational scope draft createdAt →
      OperationalCommit rt c.sup scope draft true (some 0) (c.at_ createdAt) db ws r →
      Commits rt c db ws (.operational r)
  | upsert {scope draft expectedVersion createdAt ws r} :
      c.op = .upsertOperational scope draft expectedVersion createdAt →
      OperationalCommit rt c.sup scope draft false expectedVersion (c.at_ createdAt) db ws r →
      Commits rt c db ws (.operational r)
  | batch {scope drafts createdAt ws rs} : c.op = .upsertOperationalBatch scope drafts createdAt →
      BatchCommit rt c.sup scope drafts (c.at_ createdAt) db ws rs → Commits rt c db ws (.batch rs)

/-- What a call that writes nothing may return. -/
def StoreCall.Replays (rt : Runtime) (c : StoreCall) (r : StoreResult) (db : Db) : Prop :=
  match c.op, r with
  | .provisionScope _ _, .provisioning _ => True
  | .appendReceipt scope draft key _, .receipt r =>
      ReceiptReplay scope (keyDigestOf rt scope key) (requestDigestOf rt draft) r db
  | .appendAnalysisBundle scope _ _ _ key requestDigest _, .bundle b =>
      KeyOk rt scope (some key) ∧ BundleReplay scope (bundleKeyOf rt scope key) requestDigest b db
  | .upsertOperationalBatch _ _ _, .batch rs => rs = []
  | _, _ => False

/-- How a call may fail. -/
def StoreCall.Fails (F : Exn → Prop) (c : StoreCall) (e : Exn) : Prop :=
  match c.op with
  | .appendReceipt .. | .appendAnalysisBundle .. => Failure F LocalError e
  | _ => True

theorem BundleCommitted.effect {rt : Runtime} {d : Dialect} {sup : Supply} {scope : Scope}
    {receiptDraft : ReceiptDraft} {memoryDraft : MemoryDraft} {traces : List AnatomyTrace}
    {keyDigest requestDigest partitionDigest : PyStr} {at_ : Stamp} {db : Db} {ws : List Write}
    {b : AnalysisBundle}
    (h : BundleCommitted rt sup scope receiptDraft memoryDraft traces keyDigest requestDigest
      partitionDigest at_ db ws b) : Effect rt d db ws := by
  obtain ⟨_, rows, hc, _⟩ := h
  exact hc.effect

variable {rt : Runtime} {d : Dialect}

/-- **What a call commits is an effect of the store.** -/
theorem StoreCall.Commits.effect {c : StoreCall} {db : Db} {ws : List Write} {r : StoreResult}
    (h : c.Commits rt db ws r) (hf : index.Fresh db ws) : Effect rt d db ws := by
  cases h with
  | tenant => exact .tenant _
  | workspace _ h => exact h.effect
  | provisioning _ h =>
    rcases h with h | h
    · exact h.effect hf
    · exact h.effect hf
  | receipt _ _ h => exact h.effect
  | memory _ h => exact h.effect
  | anatomy _ h => exact h.effect
  | bundle _ _ h => exact h.effect
  | insert _ h => exact h.effect
  | upsert _ h => exact h.effect
  | batch _ h => exact h.effect

/-- **Every call keeps its contract**, for any guarantee that its commits
satisfy. -/
theorem StoreCall.sat {F : Exn → Prop} {G : Db → List Write → Prop} (c : StoreCall) (db : Db)
    (hG : ∀ db ws r, c.Commits rt db ws r → index.Fresh db ws → G db ws) (hnil : ∀ db, G db []) :
    Sat (engine d) index F G
      (Outcome (engine d) index G (c.Commits rt) (c.Replays rt) (c.Fails F)) (c.prog rt d)
      db [] [] [] := by
  obtain ⟨op, sup, retry⟩ := c
  cases op with
  | createTenant spec =>
    refine (createTenant_sat (fun db hf => hG db _ (.tenant (tenantRow spec (sup.now 0))) (.tenant rfl) hf) hnil).map ?_
    intro r done db h
    refine h.map ?_ (fun _ _ hp => hp.elim) (fun _ _ => trivial)
    intro db ws r hws
    rw [hws]
    exact .tenant rfl
  | createWorkspace spec =>
    refine (createWorkspace_sat (fun db ws r h hf => hG db ws _ (.workspace rfl h) hf) hnil).map ?_
    intro r done db h
    exact h.map (fun _ _ _ hc => .workspace rfl hc) (fun _ _ hp => hp.elim) (fun _ _ => trivial)
  | provisionScope tenantSpec workspaceSpec =>
    refine (provisionScope_sat (fun db ws r h hf => hG db ws _ (.provisioning rfl h) hf) hnil).map
      ?_
    intro r done db h
    exact h.map (fun _ _ _ hc => .provisioning rfl hc) (fun _ _ hp => hp) (fun _ _ => trivial)
  | appendReceipt scope draft key createdAt =>
    refine (appendReceipt_sat (fun db ws r h hf => hG db ws _ (.receipt rfl h.1 h.2) hf) hnil).map ?_
    intro r done db h
    exact h.map (fun _ _ _ hc => .receipt rfl hc.1 hc.2) (fun _ _ hp => hp)
      (fun _ he => he.imp id (Or.imp id ReceiptRefused.localError))
  | appendMemory scope draft receiptHash createdAt =>
    refine (appendMemory_sat (fun db ws r h hf => hG db ws _ (.memory rfl h) hf) hnil).map ?_
    intro r done db h
    exact h.map (fun _ _ _ hc => .memory rfl hc) (fun _ _ hp => hp.elim) (fun _ _ => trivial)
  | appendAnatomyTrace trace createdAt =>
    refine (appendAnatomyTrace_sat (fun db ws r h hf => hG db ws _ (.anatomy rfl h) hf) hnil).map
      ?_
    intro r done db h
    exact h.map (fun _ _ _ hc => .anatomy rfl hc) (fun _ _ hp => hp.elim) (fun _ _ => trivial)
  | appendAnalysisBundle scope receiptDraft memoryDraft traces key requestDigest createdAt =>
    refine (appendAnalysisBundle_sat (fun db ws r h hf => hG db ws _ (.bundle rfl h.1 h.2) hf) hnil).map
      ?_
    intro r done db h
    exact h.map (fun _ _ _ hc => .bundle rfl hc.1 hc.2) (fun _ _ hp => hp) (fun _ he => he)
  | insertOperational scope draft createdAt =>
    refine (writeOperational_sat (fun db ws r h hf => hG db ws _ (.insert rfl h) hf) hnil).map ?_
    intro r done db h
    exact h.map (fun _ _ _ hc => .insert rfl hc) (fun _ _ hp => hp.elim) (fun _ _ => trivial)
  | upsertOperational scope draft expectedVersion createdAt =>
    unfold StoreCall.prog upsertOperational
    simp only
    split
    · exact sat_raise_outcome trivial
    refine (writeOperational_sat (fun db ws r h hf => hG db ws _ (.upsert rfl h) hf) hnil).map ?_
    intro r done db h
    exact h.map (fun _ _ _ hc => .upsert rfl hc) (fun _ _ hp => hp.elim) (fun _ _ => trivial)
  | upsertOperationalBatch scope drafts createdAt =>
    refine (upsertOperationalBatch_sat (fun db ws r h hf => hG db ws _ (.batch rfl h) hf)
      hnil).map ?_
    intro r done db h
    exact h.map (fun _ _ _ hc => .batch rfl hc) (fun _ _ hp => hp) (fun _ _ => trivial)

/-! ## §3. Runs. -/

/-- A call of a run, and the exceptions its statements are made to raise. -/
structure Issued where
  call : StoreCall
  faults : List (Option Exn)

/-- What one call returns on the committed rows `db`, and the rows after it. -/
def Issued.exec (rt : Runtime) (d : Dialect) (c : Issued) (db : Db) : Except Exn StoreResult × Db :=
  let (r, s) := (c.call.prog rt d).exec (engine d) (.idle db c.faults)
  (r, s.db)

/-- **A run**: calls, one after the other. -/
def runCalls (rt : Runtime) (d : Dialect) (db : Db) (calls : List Issued) : Db :=
  calls.foldl (fun db c => (c.exec rt d db).2) db

@[simp] theorem runCalls_nil (db : Db) : runCalls rt d db [] = db := rfl

@[simp] theorem runCalls_cons (db : Db) (c : Issued) (calls : List Issued) :
    runCalls rt d db (c :: calls) = runCalls rt d (c.exec rt d db).2 calls := rfl

theorem runCalls_append (db : Db) (calls calls' : List Issued) :
    runCalls rt d db (calls ++ calls') = runCalls rt d (runCalls rt d db calls) calls' := by
  simp [runCalls]

/-- **One call of a run**: what it did, in any guarantee that its commits
satisfy. -/
theorem Issued.exec_outcome (rt : Runtime) (d : Dialect) {G : Db → List Write → Prop} (c : Issued)
    (db : Db)
    (hG : ∀ db ws r, c.call.Commits rt db ws r → index.Fresh db ws → G db ws)
    (hnil : ∀ db, G db []) :
    ∃ done, Trail (engine d) index G db done (c.exec rt d db).2 ∧
      Outcome (engine d) index G (c.call.Commits rt) (c.call.Replays rt)
        (c.call.Fails (fun e => some e ∈ c.faults)) (c.exec rt d db).1 done
        (c.exec rt d db).2 := by
  obtain ⟨done, db', fs, hidle, htrail, hq⟩ := exec_sat (index_lawful d) c.faults
    (c.call.sat (F := fun e => some e ∈ c.faults) db hG hnil) (Index.Fresh.nil index db)
    (fun e he => he)
  have hdb : (c.exec rt d db).2 = db' := by
    unfold Issued.exec
    show ((c.call.prog rt d).exec (engine d) (.idle db c.faults)).2.db = db'
    unfold Session.idle
    rw [hidle]
    rfl
  refine ⟨done, by rw [hdb]; exact htrail, ?_⟩
  rw [hdb]
  exact hq

/-- What other calls commit keeps the invariant. -/
theorem StoreInv.env {held : List RowLock} {db db' : Db} (hi : StoreInv rt db)
    (h : Env (engine d) index (Effect rt d) held db db') : StoreInv rt db' := by
  induction h with
  | refl => exact hi
  | commit _ hG hf _ ih => exact ih.effect hG hf

/-- One call moves the database by effects of the store. -/
theorem Issued.exec_env (c : Issued) (db : Db) :
    Env (engine d) index (Effect rt d) [] db (c.exec rt d db).2 := by
  obtain ⟨done, htrail, _⟩ := c.exec_outcome rt d (G := Effect rt d) db
    (fun _ _ _ h hf => h.effect hf) (fun _ => .nothing)
  exact htrail.env

/-- **A run moves the database by effects of the store.** -/
theorem runCalls_env (calls : List Issued) (db : Db) :
    Env (engine d) index (Effect rt d) [] db (runCalls rt d db calls) := by
  induction calls generalizing db with
  | nil => exact .refl
  | cons c calls ih =>
    rw [runCalls_cons]
    exact (c.exec_env db).trans _ _ (ih _)

/-- **Every reachable database satisfies the invariant.** -/
theorem storeInv_run (calls : List Issued) {db : Db} (hi : StoreInv rt db) :
    StoreInv rt (runCalls rt d db calls) :=
  hi.env (runCalls_env calls db)

/-! ## §4. A small run. -/

def sampleScope : Scope :=
  ⟨⟨py "11111111-1111-4111-8111-111111111111"⟩, ⟨py "22222222-2222-4222-8222-222222222222"⟩⟩

/-- 2026-01-01T00:00:00Z. -/
def sampleInstant : Instant := ⟨63902822400000000, by decide, by decide⟩

/-- A clock that stands still, uuids that start with `tag`, rows in their order. -/
def Supply.sample (tag : PyStr) : Supply where
  now _ := sampleInstant
  uuid i := tag ++ decimal i
  pickMemory := .first _

/-- A call without faults. -/
def Issued.plain (op : StoreOp) (tag : String) : Issued :=
  ⟨⟨op, .sample (py tag), .sample (py tag)⟩, []⟩

def sampleReceipt : ReceiptDraft :=
  ⟨py "analysis.completed", py "workspace", py "subject", .empty, .sample, []⟩

/-- An incident that was observed at the given time. -/
def sampleIncident (observedAt : Stamp) : OperationalRecordDraft :=
  ⟨.incidentEvent, py "event-1", py "deploy", .empty, .sample, [], none, some observedAt, .empty⟩

/-- A tenant and a workspace. -/
def sampleSetup : List Issued := [
  .plain (.createTenant ⟨py "tenant", py "Tenant", sampleScope.tenantId⟩) "a",
  .plain (.createWorkspace ⟨sampleScope.tenantId, py "workspace", py "Workspace",
    sampleScope.workspaceId⟩) "b"]

theorem sampleSetup_hasWorkspace (d : Dialect) :
    HasWorkspace (runCalls .ascii d Db.empty sampleSetup) sampleScope := by
  refine ⟨⟨sampleScope.workspaceId.text, sampleScope.tenantId.text, py "workspace",
    py "Workspace", d.stamp sampleInstant.stamp⟩, ?_, rfl, rfl⟩
  cases d
  · decide +kernel
  · decide +kernel

/-- Once a workspace is there, it stays. -/
theorem hasWorkspace_run {db : Db} {scope : Scope} (h : HasWorkspace db scope)
    (calls : List Issued) : HasWorkspace (runCalls rt d db calls) scope :=
  h.grows (env_grows (runCalls_env calls db))

/-- The workspace, and a receipt. -/
def sampleRun : List Issued :=
  sampleSetup ++ [.plain (.appendReceipt sampleScope sampleReceipt none none) "c"]

theorem sampleRun_hasWorkspace (d : Dialect) :
    HasWorkspace (runCalls .ascii d Db.empty sampleRun) sampleScope := by
  rw [sampleRun, runCalls_append]
  exact hasWorkspace_run (sampleSetup_hasWorkspace d) _

end Lyte
