import Lyte.Persistence.BundleResolve
import Lyte.Persistence.VerifyConcurrency

/-
  Lyte.Persistence.ProvisionEvidence — what a provisioned scope leaves behind.

  A scope is provisioned by a tenant row, a workspace row, five heads and one
  receipt that binds them.  `Evidence` says that they are there and pass the
  checks of `_assert_provisioning_identity` and `_provisioning_receipt_hash`;
  it comes with the commit that creates a workspace and stays with every commit
  that appends no other `scope.provisioned` receipt to it.
-/

namespace Lyte

open Transact HashChain

variable {rt : Runtime} {d : Dialect} {db db' : Db}

/-! ## §1. Index entries and their rows. -/

theorem mem_keys {k : Key} : k ∈ db.keys ↔ (∃ t ∈ db.tenants, k ∈ t.keys) ∨
    (∃ w ∈ db.workspaces, k ∈ w.keys) ∨ (∃ h ∈ db.heads, k ∈ h.keys) ∨
    ∃ s, ∃ r ∈ db.rows s, k ∈ r.keys := by
  unfold Db.keys
  simp only [List.mem_append, List.mem_flatMap, mem_streamKinds, true_and, or_assoc]

/-- The entries of a row of an append-only table. -/
theorem mem_row_keys {k : Key} {r : Row} (h : k ∈ r.keys) :
    k = .rowId r.stream r.mixin.id ∨
    (∃ n, k = .rowSequence r.stream r.mixin.tenantId r.mixin.workspaceId n) ∨
    (∃ x, k = .rowHash r.stream r.mixin.tenantId r.mixin.workspaceId x) ∨
    (∃ x, k = .idempotencyKey r.mixin.tenantId r.mixin.workspaceId x) ∨
    ∃ x y n, k = .entityVersion r.mixin.tenantId r.mixin.workspaceId x y n := by
  unfold Row.keys at h
  simp only [List.cons_append, List.nil_append, List.mem_cons] at h
  rcases h with h | h | h | h
  · exact .inl h
  · exact .inr (.inl ⟨_, h⟩)
  · exact .inr (.inr (.inl ⟨_, h⟩))
  · cases r with
    | idempotency r =>
      rw [Row.ownKeys, List.mem_singleton] at h
      exact .inr (.inr (.inr (.inl ⟨_, h⟩)))
    | operational r =>
      rw [Row.ownKeys, List.mem_singleton] at h
      exact .inr (.inr (.inr (.inr ⟨_, _, _, h⟩)))
    | _ => cases h

theorem mem_keys_tenantId {id : PyStr} :
    Key.tenantId id ∈ db.keys ↔ ∃ t ∈ db.tenants, t.id = id := by
  rw [mem_keys]
  constructor
  · rintro (⟨t, ht, hk⟩ | ⟨w, _, hk⟩ | ⟨h, _, hk⟩ | ⟨s, r, _, hk⟩)
    · simp only [TenantRecord.keys, List.mem_cons, Key.tenantId.injEq, reduceCtorEq,
        List.not_mem_nil, or_false] at hk
      exact ⟨t, ht, hk.symm⟩
    · simp [WorkspaceRecord.keys] at hk
    · simp [StreamHeadRecord.keys] at hk
    · rcases mem_row_keys hk with h | ⟨_, h⟩ | ⟨_, h⟩ | ⟨_, h⟩ | ⟨_, _, _, h⟩ <;> cases h
  · rintro ⟨t, ht, rfl⟩
    exact .inl ⟨t, ht, by simp [TenantRecord.keys]⟩

theorem mem_keys_tenantSlug {slug : PyStr} :
    Key.tenantSlug slug ∈ db.keys ↔ ∃ t ∈ db.tenants, t.slug = slug := by
  rw [mem_keys]
  constructor
  · rintro (⟨t, ht, hk⟩ | ⟨w, _, hk⟩ | ⟨h, _, hk⟩ | ⟨s, r, _, hk⟩)
    · simp only [TenantRecord.keys, List.mem_cons, Key.tenantSlug.injEq, reduceCtorEq,
        List.not_mem_nil, or_false, false_or] at hk
      exact ⟨t, ht, hk.symm⟩
    · simp [WorkspaceRecord.keys] at hk
    · simp [StreamHeadRecord.keys] at hk
    · rcases mem_row_keys hk with h | ⟨_, h⟩ | ⟨_, h⟩ | ⟨_, h⟩ | ⟨_, _, _, h⟩ <;> cases h
  · rintro ⟨t, ht, rfl⟩
    exact .inl ⟨t, ht, by simp [TenantRecord.keys]⟩

theorem mem_keys_workspaceId {id : PyStr} :
    Key.workspaceId id ∈ db.keys ↔ ∃ w ∈ db.workspaces, w.id = id := by
  rw [mem_keys]
  constructor
  · rintro (⟨t, _, hk⟩ | ⟨w, hw, hk⟩ | ⟨h, _, hk⟩ | ⟨s, r, _, hk⟩)
    · simp [TenantRecord.keys] at hk
    · simp only [WorkspaceRecord.keys, List.mem_cons, Key.workspaceId.injEq, reduceCtorEq,
        List.not_mem_nil, or_false] at hk
      exact ⟨w, hw, hk.symm⟩
    · simp [StreamHeadRecord.keys] at hk
    · rcases mem_row_keys hk with h | ⟨_, h⟩ | ⟨_, h⟩ | ⟨_, h⟩ | ⟨_, _, _, h⟩ <;> cases h
  · rintro ⟨w, hw, rfl⟩
    exact .inr (.inl ⟨w, hw, by simp [WorkspaceRecord.keys]⟩)

theorem mem_keys_workspaceSlug {tenantId slug : PyStr} :
    Key.workspaceSlug tenantId slug ∈ db.keys ↔
      ∃ w ∈ db.workspaces, w.tenantId = tenantId ∧ w.slug = slug := by
  rw [mem_keys]
  constructor
  · rintro (⟨t, _, hk⟩ | ⟨w, hw, hk⟩ | ⟨h, _, hk⟩ | ⟨s, r, _, hk⟩)
    · simp [TenantRecord.keys] at hk
    · simp only [WorkspaceRecord.keys, List.mem_cons, Key.workspaceSlug.injEq, reduceCtorEq,
        List.not_mem_nil, or_false, false_or] at hk
      exact ⟨w, hw, hk.1.symm, hk.2.symm⟩
    · simp [StreamHeadRecord.keys] at hk
    · rcases mem_row_keys hk with h | ⟨_, h⟩ | ⟨_, h⟩ | ⟨_, h⟩ | ⟨_, _, _, h⟩ <;> cases h
  · rintro ⟨w, hw, rfl, rfl⟩
    exact .inr (.inl ⟨w, hw, by simp [WorkspaceRecord.keys]⟩)

theorem mem_keys_head {t w k : PyStr} :
    Key.head t w k ∈ db.keys ↔ ∃ h ∈ db.heads, h.names t w k = true := by
  rw [mem_keys]
  constructor
  · rintro (⟨t, _, hk⟩ | ⟨w, _, hk⟩ | ⟨h, hh, hk⟩ | ⟨s, r, _, hk⟩)
    · simp [TenantRecord.keys] at hk
    · simp [WorkspaceRecord.keys] at hk
    · simp only [StreamHeadRecord.keys, List.mem_singleton, Key.head.injEq] at hk
      exact ⟨h, hh, by simp [StreamHeadRecord.names, hk]⟩
    · rcases mem_row_keys hk with h | ⟨_, h⟩ | ⟨_, h⟩ | ⟨_, h⟩ | ⟨_, _, _, h⟩ <;> cases h
  · rintro ⟨h, hh, hn⟩
    simp only [StreamHeadRecord.names, Bool.and_eq_true, beq_iff_eq] at hn
    exact .inr (.inr (.inl ⟨h, hh, by simp [StreamHeadRecord.keys, hn.1.1, hn.1.2, hn.2]⟩))

/-- An entry of an append-only table comes from a row of it. -/
theorem mem_keys_row {k : Key} (hrow : (∃ s x, k = .rowId s x) ∨
    (∃ s t w n, k = .rowSequence s t w n) ∨ ∃ s t w x, k = .rowHash s t w x)
    (h : k ∈ db.keys) : ∃ s, ∃ r ∈ db.rows s, k ∈ r.keys := by
  rcases mem_keys.mp h with ⟨t, _, hk⟩ | ⟨w, _, hk⟩ | ⟨h, _, hk⟩ | h
  · rcases hrow with ⟨_, _, rfl⟩ | ⟨_, _, _, _, rfl⟩ | ⟨_, _, _, _, rfl⟩ <;>
      simp [TenantRecord.keys] at hk
  · rcases hrow with ⟨_, _, rfl⟩ | ⟨_, _, _, _, rfl⟩ | ⟨_, _, _, _, rfl⟩ <;>
      simp [WorkspaceRecord.keys] at hk
  · rcases hrow with ⟨_, _, rfl⟩ | ⟨_, _, _, _, rfl⟩ | ⟨_, _, _, _, rfl⟩ <;>
      simp [StreamHeadRecord.keys] at hk
  · exact h

theorem mem_keys_receiptId {id : PyStr} :
    Key.rowId .receipts id ∈ db.keys ↔ ∃ r ∈ db.receipts, r.id = id := by
  constructor
  · intro hk
    obtain ⟨s, x, hx, hkx⟩ := mem_keys_row (.inl ⟨_, _, rfl⟩) hk
    rcases mem_row_keys hkx with heq | ⟨_, heq⟩ | ⟨_, heq⟩ | ⟨_, heq⟩ | ⟨_, _, _, heq⟩
    · injection heq with hs hid
      cases x with
      | receipt r =>
        have hs' := mem_row hx
        rw [Row.stream_receipt] at hs'
        subst hs'
        obtain ⟨_, hr, heq⟩ := List.mem_map.mp hx
        cases heq
        exact ⟨r, hr, hid.symm⟩
      | _ => cases hs
    all_goals cases heq
  · rintro ⟨r, hr, rfl⟩
    exact keys_of_row (k := .receipts) (r := .receipt r) (List.mem_map.mpr ⟨r, hr, rfl⟩)
      (by simp [Row.keys])

/-- The engine refuses a row for one of its entries, or for a foreign key. -/
theorem rejects_cases {w : Write} (h : (engine d).rejects db w = true) :
    (∃ k ∈ w.keys, k ∈ db.keys) ∨ db.foreignKeys w = false := by
  unfold engine at h
  simp only [Bool.or_eq_true, List.any_eq_true, decide_eq_true_eq, Bool.not_eq_true'] at h
  exact h

/-- An entry that a transaction sees is committed, or its own. -/
theorem mem_keys_view {k : Key} {ws : List Write} (h : k ∈ ((engine d).view db ws).keys) :
    k ∈ db.keys ∨ ∃ w ∈ ws, k ∈ w.keys := by
  rcases (used_view (index_lawful d) ws db k).mp h with h | h
  · exact .inl h
  · exact .inr (List.mem_flatMap.mp h)

/-! ## §2. The rows of a request. -/

/-- The tenant row a request asks for. -/
def TenantSpec.Names (spec : TenantSpec) (t : TenantRecord) : Prop :=
  t.id = spec.id.text ∧ t.slug = spec.slug ∧ t.name = spec.name

/-- The workspace row a request asks for, in the tenant `tenantId`. -/
def WorkspaceSpec.Names (spec : WorkspaceSpec) (tenantId : Uuid) (w : WorkspaceRecord) : Prop :=
  w.id = spec.id.text ∧ w.tenantId = tenantId.text ∧ w.slug = spec.slug ∧ w.name = spec.name

/-- **What is stored agrees with a request**: whatever has its id or its slug is
what it asks for. -/
structure Agrees (db : Db) (tenantSpec : TenantSpec) (workspaceSpec : WorkspaceSpec) : Prop where
  tenant : ∀ t ∈ db.tenants, t.id = tenantSpec.id.text ∨ t.slug = tenantSpec.slug →
    tenantSpec.Names t
  workspace : ∀ w ∈ db.workspaces, w.id = workspaceSpec.id.text ∨
    (w.tenantId = tenantSpec.id.text ∧ w.slug = workspaceSpec.slug) →
    workspaceSpec.Names tenantSpec.id w

/-- **The tenant and the workspace of a request are stored.** -/
structure StoredScope (db : Db) (tenantSpec : TenantSpec) (workspaceSpec : WorkspaceSpec) :
    Prop where
  tenant : ∃ t ∈ db.tenants, tenantSpec.Names t
  workspace : ∃ w ∈ db.workspaces, workspaceSpec.Names tenantSpec.id w

section Identity

variable {tenantSpec : TenantSpec} {workspaceSpec : WorkspaceSpec}

theorem StoredScope.grows (h : StoredScope db tenantSpec workspaceSpec) (hg : Grows db db') :
    StoredScope db' tenantSpec workspaceSpec := by
  obtain ⟨⟨t, ht, hnames⟩, ⟨w, hw, hnames'⟩⟩ := h
  exact ⟨⟨t, hg.tenants.subset ht, hnames⟩, ⟨w, hg.workspaces.subset hw, hnames'⟩⟩

theorem StoredScope.hasWorkspace (h : StoredScope db tenantSpec workspaceSpec) :
    HasWorkspace db ⟨tenantSpec.id, workspaceSpec.id⟩ := by
  obtain ⟨_, w, hw, hid, htenant, _⟩ := h
  exact ⟨w, hw, htenant, hid⟩

theorem findTenant_some {id : Uuid} {t : TenantRecord} (h : findTenant db id = some t) :
    t ∈ db.tenants ∧ t.id = id.text := by
  unfold findTenant at h
  exact ⟨List.mem_of_find?_eq_some h, by simpa using List.find?_some h⟩

theorem findTenant_none {id : Uuid} (h : findTenant db id = none) :
    ∀ t ∈ db.tenants, t.id ≠ id.text := by
  intro t ht he
  unfold findTenant at h
  rw [List.find?_eq_none] at h
  exact h t ht (by simpa using he)

theorem findWorkspace_some {id : Uuid} {w : WorkspaceRecord} (h : findWorkspace db id = some w) :
    w ∈ db.workspaces ∧ w.id = id.text := by
  unfold findWorkspace at h
  exact ⟨List.mem_of_find?_eq_some h, by simpa using List.find?_some h⟩

theorem findWorkspace_none {id : Uuid} (h : findWorkspace db id = none) :
    ∀ w ∈ db.workspaces, w.id ≠ id.text := by
  intro w hw he
  unfold findWorkspace at h
  rw [List.find?_eq_none] at h
  exact h w hw (by simpa using he)

/-- The tenant of a request, once stored, is what a lookup finds. -/
theorem Agrees.findTenant (ha : Agrees db tenantSpec workspaceSpec)
    (h : ∃ t ∈ db.tenants, tenantSpec.Names t) :
    ∃ t, Lyte.findTenant db tenantSpec.id = some t ∧ tenantSpec.Names t := by
  obtain ⟨t, ht, hid, _⟩ := h
  cases hf : Lyte.findTenant db tenantSpec.id with
  | none => exact absurd hid (findTenant_none hf t ht)
  | some t' =>
    obtain ⟨hmem, hid'⟩ := findTenant_some hf
    exact ⟨t', rfl, ha.tenant t' hmem (.inl hid')⟩

/-- So is its workspace. -/
theorem Agrees.findWorkspace (ha : Agrees db tenantSpec workspaceSpec)
    (h : ∃ w ∈ db.workspaces, workspaceSpec.Names tenantSpec.id w) :
    ∃ w, Lyte.findWorkspace db workspaceSpec.id = some w ∧
      workspaceSpec.Names tenantSpec.id w := by
  obtain ⟨w, hw, hid, _⟩ := h
  cases hf : Lyte.findWorkspace db workspaceSpec.id with
  | none => exact absurd hid (findWorkspace_none hf w hw)
  | some w' =>
    obtain ⟨hmem, hid'⟩ := findWorkspace_some hf
    exact ⟨w', rfl, ha.workspace w' hmem (.inl hid')⟩

end Identity

/-! ## §3. The checks. -/

section Checks

variable {tenantSpec : TenantSpec} {workspaceSpec : WorkspaceSpec}

/-- `stream_kinds == frozenset(STREAM_KINDS)`. -/
def KindsComplete (kinds : List PyStr) : Prop :=
  (∀ v ∈ kinds, ∃ k : StreamKind, k.value = v) ∧ ∀ k : StreamKind, k.value ∈ kinds

/-- A workspace of the store has its heads, and no others. -/
theorem StoreInv.kindsComplete (hi : StoreInv rt db) {scope : Scope}
    (hws : HasWorkspace db scope) :
    KindsComplete (headKinds db scope.tenantId scope.workspaceId) := by
  unfold headKinds
  constructor
  · intro v hv
    obtain ⟨h, hh, rfl⟩ := List.mem_map.mp hv
    obtain ⟨_, k, hk⟩ := hi.heads h (List.mem_of_mem_filter hh)
    exact ⟨k, hk.symm⟩
  · intro k
    obtain ⟨h, hh, _⟩ := (hi.chains scope hws k).head
    have hnames := names_of_head? hh
    simp only [StreamHeadRecord.names, Bool.and_eq_true, beq_iff_eq] at hnames
    refine List.mem_map.mpr ⟨h, List.mem_filter.mpr ⟨List.mem_of_find?_eq_some hh, ?_⟩, hnames.2⟩
    simp [hnames.1.1, hnames.1.2]

/-- **`_assert_provisioning_identity` accepts** the rows of the request with all
heads. -/
theorem assertProvisioningIdentity_ok {t : TenantRecord} {w : WorkspaceRecord} {kinds : List PyStr}
    (ht : tenantSpec.Names t) (hw : workspaceSpec.Names tenantSpec.id w)
    (hk : KindsComplete kinds) :
    assertProvisioningIdentity (some t) (some w) tenantSpec workspaceSpec kinds = .ok () := by
  obtain ⟨_, hslug, hname⟩ := ht
  obtain ⟨_, htenant, hslug', hname'⟩ := hw
  have hcomplete : (kinds.all (fun v => streamKinds.any (fun k => k.value == v)) &&
      streamKinds.all (fun k => kinds.contains k.value)) = true := by
    simp only [Bool.and_eq_true, List.all_eq_true, List.any_eq_true, beq_iff_eq,
      List.contains_iff_mem]
    refine ⟨fun v hv => ?_, fun k _ => hk.2 k⟩
    obtain ⟨k, hkv⟩ := hk.1 v hv
    exact ⟨k, mem_streamKinds k, hkv⟩
  unfold assertProvisioningIdentity
  simp only
  rw [if_neg (by simp [hslug, hname]), if_neg (by simp [htenant, hslug', hname']),
    hcomplete]
  rfl

/-- What it accepts are the rows of the request. -/
theorem assertProvisioningIdentity_names {t : Option TenantRecord} {w : Option WorkspaceRecord}
    {kinds : List PyStr}
    (h : assertProvisioningIdentity t w tenantSpec workspaceSpec kinds = .ok ()) :
    ∃ t' w', t = some t' ∧ w = some w' ∧ (t'.slug = tenantSpec.slug ∧ t'.name = tenantSpec.name) ∧
      w'.tenantId = tenantSpec.id.text ∧ w'.slug = workspaceSpec.slug ∧
      w'.name = workspaceSpec.name := by
  unfold assertProvisioningIdentity at h
  cases t with
  | none => cases h
  | some t =>
    cases w with
    | none => cases h
    | some w =>
      simp only at h
      split at h
      · cases h
      next ht =>
      split at h
      · cases h
      next hw =>
      simp only [not_or, not_not] at ht hw
      exact ⟨t, w, rfl, rfl, ht, hw⟩

/-- Whatever it raises is a conflict. -/
theorem assertProvisioningIdentity_raises (t : Option TenantRecord) (w : Option WorkspaceRecord)
    (kinds : List PyStr) :
    Raises (fun e => e.isProvisioningConflict = true)
      (assertProvisioningIdentity t w tenantSpec workspaceSpec kinds) := by
  intro e he
  unfold assertProvisioningIdentity at he
  split at he
  · split at he
    · cases he
      rfl
    split at he
    · cases he
      rfl
    split at he
    · cases he
      rfl
    · cases he
  · cases he
    rfl

/-- The receipts that claim to provision the scope pass
`_provisioning_receipt_hash`. -/
def ReceiptCloses (rt : Runtime) (d : Dialect) (db : Db) (tenantSpec : TenantSpec)
    (workspaceSpec : WorkspaceSpec) (hash : Option PyStr) : Prop :=
  provisioningReceiptHash rt d ⟨tenantSpec.id, workspaceSpec.id⟩ tenantSpec workspaceSpec
    ((provisioningReceipts db ⟨tenantSpec.id, workspaceSpec.id⟩).take 2) = .ok hash

/-- **A scope that is provisioned**, with the hash of its receipt. -/
structure Evidence (rt : Runtime) (d : Dialect) (db : Db) (tenantSpec : TenantSpec)
    (workspaceSpec : WorkspaceSpec) (hash : Option PyStr) : Prop where
  agrees : Agrees db tenantSpec workspaceSpec
  stored : StoredScope db tenantSpec workspaceSpec
  kinds : KindsComplete (headKinds db tenantSpec.id workspaceSpec.id)
  receipt : ReceiptCloses rt d db tenantSpec workspaceSpec hash

end Checks

/-! ## §4. Receipts that claim to provision a scope. -/

/-- The receipt claims to provision the scope it is in. -/
def ReceiptRecord.claimsProvisioning (r : ReceiptRecord) : Bool :=
  r.kind == provisionedKind || basisKind r.basisJson == some provisionedKind

@[simp] theorem claimsProvisioning_stored (d : Dialect) (r : ReceiptRecord) :
    (r.stored d).claimsProvisioning = r.claimsProvisioning := rfl

@[simp] theorem inScope_stored (d : Dialect) (r : ReceiptRecord) (scope : Scope) :
    (r.stored d).inScope scope = r.inScope scope := rfl

/-- The receipts that statements append. -/
def receiptsOf (ws : List Write) : List ReceiptRecord :=
  ws.filterMap (fun w => match w with
    | .addRow (.receipt r) => some r
    | _ => none)

theorem mem_receiptsOf {ws : List Write} {r : ReceiptRecord} :
    r ∈ receiptsOf ws ↔ Write.addRow (.receipt r) ∈ ws := by
  unfold receiptsOf
  rw [List.mem_filterMap]
  constructor
  · rintro ⟨w, hw, h⟩
    split at h
    · cases h
      exact hw
    · cases h
  · intro h
    exact ⟨_, h, rfl⟩

theorem receipts_foldl (ws : List Write) (db : Db) :
    (ws.foldl Db.write db).receipts = db.receipts ++ receiptsOf ws := by
  induction ws generalizing db with
  | nil => simp [receiptsOf]
  | cons w ws ih =>
    have hw : (db.write w).receipts = db.receipts ++ receiptsOf [w] := by
      cases w with
      | addRow r => cases r <;> simp [receiptsOf, Db.write, Db.addRow]
      | _ => simp [receiptsOf, Db.write]
    have happ : receiptsOf (w :: ws) = receiptsOf [w] ++ receiptsOf ws := by
      unfold receiptsOf
      rw [← List.filterMap_append, List.singleton_append]
    rw [List.foldl_cons, ih, hw, happ, List.append_assoc]

theorem receiptsOf_stored (d : Dialect) (ws : List Write) :
    receiptsOf (ws.map (Write.stored d)) = (receiptsOf ws).map (ReceiptRecord.stored d) := by
  unfold receiptsOf
  rw [List.filterMap_map, List.map_filterMap]
  refine List.filterMap_congr ?_
  intro w _
  cases w with
  | addRow r => cases r <;> rfl
  | _ => rfl

theorem receipts_after_commit (d : Dialect) (db : Db) (ws : List Write) :
    ((engine d).commit db ws).receipts
      = db.receipts ++ (receiptsOf ws).map (ReceiptRecord.stored d) := by
  unfold Engine.commit
  rw [engine_write, engine_stored, receipts_foldl, receiptsOf_stored]

theorem receipts_view (d : Dialect) (db : Db) (ws : List Write) :
    ((engine d).view db ws).receipts = db.receipts ++ receiptsOf ws := receipts_foldl ws db

theorem provisioningReceipts_eq (db : Db) (scope : Scope) : provisioningReceipts db scope
    = db.receipts.filter (fun r => r.inScope scope && r.claimsProvisioning) := rfl

/-- **A commit that claims nothing for a scope** leaves its evidence alone. -/
theorem provisioningReceipts_commit {scope : Scope} {ws : List Write}
    (h : ∀ r, Write.addRow (.receipt r) ∈ ws → r.inScope scope = true →
      r.claimsProvisioning = false) :
    provisioningReceipts ((engine d).commit db ws) scope = provisioningReceipts db scope := by
  rw [provisioningReceipts_eq, receipts_after_commit, List.filter_append, provisioningReceipts_eq]
  have hnone : ((receiptsOf ws).map (ReceiptRecord.stored d)).filter
      (fun r => r.inScope scope && r.claimsProvisioning) = [] := by
    rw [List.filter_eq_nil_iff]
    intro r hr hclaims
    obtain ⟨r', hr', rfl⟩ := List.mem_map.mp hr
    rw [inScope_stored, claimsProvisioning_stored, Bool.and_eq_true] at hclaims
    rw [h r' (mem_receiptsOf.mp hr') hclaims.1] at hclaims
    exact absurd hclaims.2 (by simp)
  rw [hnone, List.append_nil]

/-- The kind that a sealed receipt binds. -/
theorem basisKind_receiptData {schema tenantId workspaceId streamKind : PyStr} {sequence : Int}
    {previousHash : Option PyStr} {createdAt kind subjectType subjectId truthLabel : PyStr}
    {payload : Json} {payloadSha256 : PyStr} {evidenceRefs : Json} :
    basisKind (basisDict schema tenantId workspaceId streamKind sequence previousHash createdAt
      (receiptData kind subjectType subjectId truthLabel payload payloadSha256 evidenceRefs))
      = some kind := rfl

/-- A receipt claims to provision its scope where its draft says so. -/
theorem receiptRow_claims {id : PyStr} {scope : Scope} {draft : ReceiptDraft} {n : Int}
    {p : Option PyStr} {at_ : Stamp} {r : ReceiptRecord}
    (h : receiptRow rt id scope draft n p at_ = .ok r) :
    r.claimsProvisioning = (draft.kind == provisionedKind) := by
  obtain ⟨digest, m, _, hm, rfl⟩ := receiptRow_ok h
  obtain ⟨text, _, hb, _, _⟩ := seal_ok hm
  unfold ReceiptRecord.claimsProvisioning
  simp only [hb, basisKind_receiptData]
  cases hk : draft.kind == provisionedKind with
  | true => rfl
  | false => simpa using hk

theorem provisioningRow_claims {id : PyStr} {scope : Scope} {tenantSpec : TenantSpec}
    {workspaceSpec : WorkspaceSpec} {n : Int} {p : Option PyStr} {at_ : Stamp} {r : ReceiptRecord}
    (h : provisioningRow rt id scope tenantSpec workspaceSpec n p at_ = .ok r) :
    r.claimsProvisioning = true := by
  obtain ⟨digest, m, _, hm, rfl⟩ := provisioningRow_ok h
  rfl

/-! ## §5. The receipt of a new workspace. -/

/-- **A sealed row is read back as valid** where its time survives. -/
theorem validate_of_seal {id schema : PyStr} {scope : Scope} {k : StreamKind} {n : Int}
    {p : Option PyStr} {at_ : Stamp} {data : List (PyStr × Json)} {m : AppendOnlyMixin}
    (h : AppendOnlyMixin.seal rt id schema scope k n p at_ data = .ok m) (hat : Survives d at_)
    (hnd : (Json.dict data).nodupKeys = true) :
    validateCanonicalProjection rt d (m.stored d) scope schema k data = .ok () := by
  obtain ⟨text, hiso, hb, hdigest, hm⟩ := seal_ok h
  have hcreated : m.createdAt = at_ := by rw [hm]
  rw [validate_stored (by rw [hcreated]; exact hat) (by rw [hcreated]; exact hiso)]
  have htime : canonicalTimestamp d m.createdAt = .ok text := by
    rw [hcreated]
    exact canonicalTimestamp_aware hiso
  obtain ⟨t, rfl⟩ := canonicalTimestamp_instant htime
  have hbasis : basis schema scope k m.sequence m.previousHash t.stamp data = .ok m.basisJson := by
    rw [hb, hm]
    unfold basis
    rw [isoformatZ_instant]
    rfl
  have hself : m.basisJson.pyEq m.basisJson = true :=
    pyEq_self_of_sha256Json rt (by rw [hb]; exact nodupKeys_basisDict hnd) hdigest
  have hvalid : canonicalProjectionValid rt d m scope schema k data = .ok true := by
    unfold canonicalProjectionValid
    rw [htime]
    show (do let createdAt ← rt.fromisoformat (isoText t.micros); _) = _
    rw [rt.fromisoformat_isoText]
    show (do let expected ← basis schema scope k m.sequence m.previousHash t.stamp data; _) = _
    rw [hbasis]
    have hin : m.inScope scope = true := (sealed_of_seal h).2.2.2.2.inScope
    show (if m.inScope scope && m.basisJson.pyEq m.basisJson then _ else _) = _
    rw [hin, hself]
    show (do let digest ← sha256Json rt m.basisJson; _) = _
    rw [hdigest]
    show Except.ok (m.recordHash == m.recordHash) = _
    rw [beq_self_eq_true]
  unfold validateCanonicalProjection
  rw [hvalid]

theorem nodupKeys_provisioningPayload (tenantSpec : TenantSpec) (workspaceSpec : WorkspaceSpec) :
    (provisioningPayload tenantSpec workspaceSpec).nodupKeys = true := by
  have hspec : ∀ a b c, (Json.dict [(py "id", .str a), (py "slug", .str b),
      (py "name", .str c)]).nodupKeys = true := by
    intro a b c
    refine nodupKeys_dict (by simp) ?_
    simp [nodupKeys_str]
  refine nodupKeys_dict (by simp) ?_
  simp only [List.mem_cons, List.not_mem_nil, or_false]
  rintro p (rfl | rfl | rfl)
  · exact hspec _ _ _
  · exact hspec _ _ _
  · rfl

/-- **The receipt of a new workspace closes** when it is read back. -/
theorem provisioningReceiptHash_new {id : PyStr} {tenantSpec : TenantSpec}
    {workspaceSpec : WorkspaceSpec} {n : Int} {p : Option PyStr} {at_ : Instant} {r : ReceiptRecord}
    (h : provisioningRow rt id ⟨tenantSpec.id, workspaceSpec.id⟩ tenantSpec workspaceSpec n p
      at_.stamp = .ok r) :
    provisioningReceiptHash rt d ⟨tenantSpec.id, workspaceSpec.id⟩ tenantSpec workspaceSpec
      [r.stored d] = .ok (some r.recordHash) := by
  obtain ⟨digest, m, hdigest, hm, rfl⟩ := provisioningRow_ok h
  have hpayload := nodupKeys_provisioningPayload tenantSpec workspaceSpec
  have hvalid : validateReceipt rt d (ReceiptRecord.stored d ⟨m, provisionedKind, py "workspace",
      workspaceSpec.id.text, py "MEASURED", provisioningPayload tenantSpec workspaceSpec, digest,
      .list []⟩) ⟨tenantSpec.id, workspaceSpec.id⟩ = .ok () :=
    validate_of_seal hm (survives_instant at_) (nodupKeys_receiptData hpayload rfl)
  unfold provisioningReceiptHash
  simp only
  rw [hvalid]
  have hself := pyEq_self_of_sha256Json rt hpayload hdigest
  simp only [ReceiptRecord.stored, hself, hdigest]
  simp [bind, Except.bind, pure, Except.pure, TruthLabel.value, Json.pyEq, Json.pyEqItems]

end Lyte
