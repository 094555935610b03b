import Lyte.Persistence.Bundle

/-
  Lyte.Persistence.Provisioning — tenants, workspaces and their stream heads.

  `provisionScope` creates whatever is missing of one scope in one transaction,
  with a receipt of its own for a new workspace.  A lost race shows up as an
  IntegrityError: the call then reads what the winner left, and tries once more
  where only the workspace is missing.
-/

namespace Lyte

open Transact

structure ScopeProvisioning where
  scope : Scope
  state : PyStr
  tenantCreated : Bool
  workspaceCreated : Bool
  receiptHash : Option PyStr

/-- `session.get(TenantRecord, id)`. -/
def findTenant (db : Db) (id : Uuid) : Option TenantRecord :=
  db.tenants.find? (fun t => t.id == id.text)

/-- `session.get(WorkspaceRecord, id)`. -/
def findWorkspace (db : Db) (id : Uuid) : Option WorkspaceRecord :=
  db.workspaces.find? (fun w => w.id == id.text)

/-! ## §1. Tenants and workspaces. -/

def tenantRow (spec : TenantSpec) (at_ : Instant) : TenantRecord :=
  ⟨spec.id.text, spec.slug, spec.name, at_.stamp⟩

def workspaceRow (tenantId : Uuid) (spec : WorkspaceSpec) (at_ : Instant) : WorkspaceRecord :=
  ⟨spec.id.text, tenantId.text, spec.slug, spec.name, at_.stamp⟩

/-- The heads of a new workspace; `clock` is read once for each. -/
def initialHeads (scope : Scope) (clock : StreamKind → Instant) : List StreamHeadRecord :=
  streamKinds.map (fun k =>
    ⟨scope.tenantId.text, scope.workspaceId.text, k.value, 0, none, (clock k).stamp⟩)

/-- The position of a stream in `STREAM_KINDS`. -/
def StreamKind.ordinal : StreamKind → Nat
  | .receipts => 0
  | .idempotency => 1
  | .memory => 2
  | .anatomy => 3
  | .operational => 4

/-- `create_tenant`. -/
def createTenant (sup : Supply) (spec : TenantSpec) : StoreProg TenantRecord :=
  let row := tenantRow spec (sup.now 0)
  transaction do
    Body.flush [.addTenant row]
    return row

/-- The transaction of `create_workspace`. -/
def createWorkspaceBody (sup : Supply) (spec : WorkspaceSpec) : StoreBody WorkspaceRecord := do
  let row := workspaceRow spec.tenantId spec (sup.now 0)
  let tenant ← Body.select (fun db => findTenant db spec.tenantId)
  if tenant.isNone then Body.raise (.scopeNotFound (py "tenant does not exist"))
  else
    Body.flush [.addWorkspace row]
    Body.flush ((initialHeads ⟨spec.tenantId, spec.id⟩ (fun k => sup.now (1 + k.ordinal))).map
      .addHead)
    return row

/-- `create_workspace`. -/
def createWorkspace (sup : Supply) (spec : WorkspaceSpec) : StoreProg WorkspaceRecord :=
  transaction (createWorkspaceBody sup spec)

/-! ## §2. Checking what exists. -/

/-- `_assert_provisioning_identity`. -/
def assertProvisioningIdentity (tenant : Option TenantRecord) (workspace : Option WorkspaceRecord)
    (tenantSpec : TenantSpec) (workspaceSpec : WorkspaceSpec) (kinds : List PyStr) :
    Except Exn Unit :=
  match tenant, workspace with
  | some tenant, some workspace =>
      if tenant.slug ≠ tenantSpec.slug ∨ tenant.name ≠ tenantSpec.name then
        .error (.provisioningConflict
          (py "tenant identity already exists with different metadata"))
      else if workspace.tenantId ≠ tenantSpec.id.text ∨ workspace.slug ≠ workspaceSpec.slug ∨
          workspace.name ≠ workspaceSpec.name then
        .error (.provisioningConflict
          (py "workspace identity already exists with different metadata"))
      else if !(kinds.all (fun v => streamKinds.any (fun k => k.value == v)) &&
          streamKinds.all (fun k => kinds.contains k.value)) then
        .error (.provisioningConflict (py "workspace stream initialization is incomplete"))
      else .ok ()
  | _, _ => .error (.provisioningConflict (py "scope provisioning did not converge"))

/-- The stream kinds that have a head. -/
def headKinds (db : Db) (tenantId workspaceId : Uuid) : List PyStr :=
  (db.heads.filter (fun h => h.tenantId == tenantId.text && h.workspaceId == workspaceId.text)).map
    StreamHeadRecord.streamKind

def provisionedKind : PyStr := py "scope.provisioned"

/-- `basis_json["data"]["kind"].as_string()`. -/
def basisKind (b : Json) : Option PyStr :=
  match b with
  | .dict fields =>
      match Json.get fields (py "data") with
      | .dict data =>
          match Json.get data (py "kind") with
          | .str s => some s
          | _ => none
      | _ => none
  | _ => none

/-- The receipts that claim to provision a scope. -/
def provisioningReceipts (db : Db) (scope : Scope) : List ReceiptRecord :=
  db.receipts.filter (fun r => r.inScope scope &&
    (r.kind == provisionedKind || basisKind r.basisJson == some provisionedKind))

/-- The payload of a provisioning receipt. -/
def provisioningPayload (tenantSpec : TenantSpec) (workspaceSpec : WorkspaceSpec) : Json := .dict [
  (py "tenant", .dict [
    (py "id", .str tenantSpec.id.text),
    (py "slug", .str tenantSpec.slug),
    (py "name", .str tenantSpec.name)]),
  (py "workspace", .dict [
    (py "id", .str workspaceSpec.id.text),
    (py "slug", .str workspaceSpec.slug),
    (py "name", .str workspaceSpec.name)]),
  (py "sample_data_seeded", .bool false)]

variable (rt : Runtime) (d : Dialect)

/-- `_provisioning_receipt_hash`, behind its query. -/
def provisioningReceiptHash (scope : Scope) (tenantSpec : TenantSpec)
    (workspaceSpec : WorkspaceSpec) (receipts : List ReceiptRecord) :
    Except Exn (Option PyStr) :=
  match receipts with
  | [] => .ok none
  | [receipt] =>
      match validateReceipt rt d receipt scope with
      | .error e =>
          if e.isPersistenceError then
            .error (.provisioningConflict
              (py "scope provisioning receipt integrity does not close"))
          else .error e
      | .ok () => do
          let expected := provisioningPayload tenantSpec workspaceSpec
          let unbound := Exn.provisioningConflict
            (py "scope provisioning receipt does not bind this identity")
          if !receipt.payloadJson.pyEq expected then throw unbound
          let digest ← sha256Json rt expected
          if receipt.payloadSha256 ≠ digest ∨ receipt.kind ≠ provisionedKind ∨
              receipt.subjectType ≠ py "workspace" ∨
              receipt.subjectId ≠ scope.workspaceId.text ∨
              receipt.truthLabel ≠ TruthLabel.measured.value ∨
              !receipt.evidenceRefs.pyEq (.list []) then
            throw unbound
          return some receipt.recordHash
  | _ => .error (.provisioningConflict (py "scope provisioning receipt is ambiguous"))

/-- `_read_provisioned_scope`. -/
def readProvisionedScope (tenantSpec : TenantSpec) (workspaceSpec : WorkspaceSpec) :
    StoreProg ScopeProvisioning :=
  let scope : Scope := ⟨tenantSpec.id, workspaceSpec.id⟩
  readSession do
    let tenant ← Body.select (fun db => findTenant db tenantSpec.id)
    let workspace ← Body.select (fun db => findWorkspace db workspaceSpec.id)
    let kinds ← Body.select (fun db => headKinds db tenantSpec.id workspaceSpec.id)
    Body.ofExcept (assertProvisioningIdentity tenant workspace tenantSpec workspaceSpec kinds)
    let receipts ← Body.select (fun db => (provisioningReceipts db scope).take 2)
    let receiptHash ← Body.ofExcept
      (provisioningReceiptHash rt d scope tenantSpec workspaceSpec receipts)
    return ⟨scope, py "EXISTING", false, false, receiptHash⟩

/-! ## §3. Provisioning. -/

/-- The receipt of a new workspace. -/
def provisioningRow (id : PyStr) (scope : Scope) (tenantSpec : TenantSpec)
    (workspaceSpec : WorkspaceSpec) (sequence : Int) (previousHash : Option PyStr) (at_ : Stamp) :
    Except Exn ReceiptRecord := do
  let payload := provisioningPayload tenantSpec workspaceSpec
  let payloadSha256 ← sha256Json rt payload
  let m ← AppendOnlyMixin.seal rt id receiptSchema scope .receipts sequence previousHash at_
    (receiptData provisionedKind (py "workspace") workspaceSpec.id.text (py "MEASURED") payload
      payloadSha256 (.list []))
  return {
    toAppendOnlyMixin := m
    kind := provisionedKind
    subjectType := py "workspace"
    subjectId := workspaceSpec.id.text
    truthLabel := py "MEASURED"
    payloadJson := payload
    payloadSha256 := payloadSha256
    evidenceRefs := .list [] }

/-- `_append_provisioning_receipt`. -/
def appendProvisioningReceipt (id : PyStr) (at_ : Instant) (tenantSpec : TenantSpec)
    (workspaceSpec : WorkspaceSpec) : StoreBody PyStr := do
  let scope : Scope := ⟨tenantSpec.id, workspaceSpec.id⟩
  let head ← lockedHead scope .receipts
  let receipt ← Body.ofExcept (provisioningRow rt id scope tenantSpec workspaceSpec
    (head.lastSequence + 1) head.lastHash at_.stamp)
  Body.flush (appendWrites
    [⟨[.receipt receipt], advanceHead head receipt.sequence receipt.recordHash at_.stamp⟩])
  return receipt.recordHash

/-- The tenant half of `_provision_scope_once`: the tenant, and whether it was
created. -/
def provisionTenant (sup : Supply) (tenantSpec : TenantSpec) :
    StoreBody (TenantRecord × Bool) := do
  let tenant ← Body.selectForUpdate
    (fun db => (findTenant db tenantSpec.id).map (fun t => .tenant t.id))
    (fun db => findTenant db tenantSpec.id)
  match tenant with
  | none =>
      let tenant := tenantRow tenantSpec (sup.now 0)
      Body.flush [.addTenant tenant]
      return (tenant, true)
  | some tenant =>
      if tenant.slug ≠ tenantSpec.slug ∨ tenant.name ≠ tenantSpec.name then
        Body.raise (.provisioningConflict
          (py "tenant identity already exists with different metadata"))
      else return (tenant, false)

/-- The workspace half of `_provision_scope_once`: whether the workspace was
created, and the hash of its receipt. -/
def provisionWorkspace (sup : Supply) (tenant : TenantRecord) (tenantSpec : TenantSpec)
    (workspaceSpec : WorkspaceSpec) : StoreBody (Bool × Option PyStr) := do
  let scope : Scope := ⟨tenantSpec.id, workspaceSpec.id⟩
  let workspace ← Body.selectForUpdate
    (fun db => (findWorkspace db workspaceSpec.id).map (fun w => .workspace w.id))
    (fun db => findWorkspace db workspaceSpec.id)
  match workspace with
  | none =>
      Body.flush [.addWorkspace (workspaceRow tenantSpec.id workspaceSpec (sup.now 1))]
      Body.flush ((initialHeads scope (fun k => sup.now (2 + k.ordinal))).map .addHead)
      let receiptHash ← appendProvisioningReceipt rt (sup.uuid 0) (sup.now 7) tenantSpec
        workspaceSpec
      return (true, some receiptHash)
  | some workspace =>
      let kinds ← Body.select (fun db => headKinds db tenantSpec.id workspaceSpec.id)
      Body.ofExcept
        (assertProvisioningIdentity (some tenant) (some workspace) tenantSpec workspaceSpec kinds)
      let receipts ← Body.select (fun db => (provisioningReceipts db scope).take 2)
      let receiptHash ← Body.ofExcept
        (provisioningReceiptHash rt d scope tenantSpec workspaceSpec receipts)
      return (false, receiptHash)

/-- `_provision_scope_once`. -/
def provisionScopeOnce (sup : Supply) (tenantSpec : TenantSpec) (workspaceSpec : WorkspaceSpec) :
    StoreProg ScopeProvisioning :=
  if workspaceSpec.tenantId ≠ tenantSpec.id then
    .raise (.provisioningConflict (py "workspace tenant does not match the tenant identity"))
  else
    transaction do
      let (tenant, tenantCreated) ← provisionTenant sup tenantSpec
      let (workspaceCreated, receiptHash) ←
        provisionWorkspace rt d sup tenant tenantSpec workspaceSpec
      return ⟨⟨tenantSpec.id, workspaceSpec.id⟩,
        if tenantCreated || workspaceCreated then py "CREATED" else py "EXISTING",
        tenantCreated, workspaceCreated, receiptHash⟩

/-- `_retryable_missing_workspace`. -/
def retryableMissingWorkspace (tenantSpec : TenantSpec) (workspaceSpec : WorkspaceSpec) :
    StoreProg Bool :=
  readSession do
    let tenant ← Body.select (fun db => findTenant db tenantSpec.id)
    if !tenant.any (fun t => t.slug == tenantSpec.slug && t.name == tenantSpec.name) then
      return false
    else
      let workspace ← Body.select (fun db => findWorkspace db workspaceSpec.id)
      if workspace.isSome then return false
      else
        let slugOwner ← Body.select (fun db => db.workspaces.find? (fun w =>
          w.tenantId == tenantSpec.id.text && w.slug == workspaceSpec.slug))
        return slugOwner.isNone

/-- One round of the loop of `provision_scope`. -/
def provisionAttempt (sup : Supply) (tenantSpec : TenantSpec) (workspaceSpec : WorkspaceSpec)
    (onConflict : Exn → StoreProg ScopeProvisioning) : StoreProg ScopeProvisioning :=
  (provisionScopeOnce rt d sup tenantSpec workspaceSpec).tryCatch (fun e =>
    if e.isIntegrityError then
      (readProvisionedScope rt d tenantSpec workspaceSpec).tryCatch (fun e' =>
        if e'.isProvisioningConflict then onConflict e' else .raise e')
    else .raise e)

/-- `provision_scope`: two attempts, each with its own clock readings and
uuid. -/
def provisionScope (sup sup' : Supply) (tenantSpec : TenantSpec) (workspaceSpec : WorkspaceSpec) :
    StoreProg ScopeProvisioning :=
  provisionAttempt rt d sup tenantSpec workspaceSpec (fun e => do
    if ← retryableMissingWorkspace tenantSpec workspaceSpec then
      provisionAttempt rt d sup' tenantSpec workspaceSpec .raise
    else .raise e)

end Lyte
