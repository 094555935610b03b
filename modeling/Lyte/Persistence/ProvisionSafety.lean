import Lyte.Persistence.ProvisionConvergence

/-
  Lyte.Persistence.ProvisionSafety — what a provisioned scope stays.

  The commit that creates a workspace leaves the rows that its request asked
  for, five heads and one receipt that binds them; unique names keep every
  other commit from adding to them, and only `provision_scope` appends receipts
  that claim to provision a scope.

      provision_scope_safe   in every interleaving the scope stays as its
                             request asked for it, the same request answers
                             EXISTING from then on, and one that disagrees with
                             what is stored neither returns nor commits.
-/

namespace Lyte

open Transact

variable {rt : Runtime} {d : Dialect} {db db' : Db} {ws : List Write}

/-! ## §1. Unique names. -/

theorem eq_of_nodup_flatMap {α β : Type} {l : List α} {f : α → List β} (h : (l.flatMap f).Nodup)
    {a b : α} (ha : a ∈ l) (hb : b ∈ l) {k : β} (hka : k ∈ f a) (hkb : k ∈ f b) : a = b := by
  have hsymm : Std.Symm (fun x y : α => ∀ k ∈ f x, k ∉ f y) :=
    ⟨fun _ _ hxy k hk hk' => hxy k hk' hk⟩
  have hpair : l.Pairwise (fun x y => ∀ k ∈ f x, k ∉ f y) :=
    (List.nodup_flatMap.mp h).2.imp (fun hxy k hk hk' => hxy hk hk')
  by_contra hne
  exact hpair.forall ha hb hne k hka hkb

/-- **No two tenants, workspaces or heads share a unique index entry.** -/
structure UniqueNames (db : Db) : Prop where
  tenants : (db.tenants.flatMap TenantRecord.keys).Nodup
  workspaces : (db.workspaces.flatMap WorkspaceRecord.keys).Nodup
  heads : (db.heads.flatMap StreamHeadRecord.keys).Nodup

theorem uniqueNames_empty : UniqueNames .empty := ⟨List.nodup_nil, List.nodup_nil, List.nodup_nil⟩

/-- One statement on fresh keys. -/
theorem UniqueNames.write {w : Write} (h : UniqueNames db) (hw : ∀ k ∈ w.keys, k ∉ db.keys) :
    UniqueNames (db.write w) := by
  have happend : ∀ {α : Type} {l : List α} {f : α → List Key} {r : α}, (l.flatMap f).Nodup →
      (f r).Nodup → (∀ k ∈ f r, k ∉ l.flatMap f) → ((l ++ [r]).flatMap f).Nodup := by
    intro α l f r hl hr hnew
    rw [List.flatMap_append, List.flatMap_singleton, List.nodup_append]
    refine ⟨hl, hr, fun a ha b hb hab => ?_⟩
    subst hab
    exact hnew a hb ha
  have hkeys : ∀ k ∈ w.keys, k ∉ db.tenants.flatMap TenantRecord.keys ∧
      k ∉ db.workspaces.flatMap WorkspaceRecord.keys ∧
      k ∉ db.heads.flatMap StreamHeadRecord.keys := by
    intro k hk
    have hno := hw k hk
    unfold Db.keys at hno
    simp only [List.mem_append, not_or] at hno
    exact ⟨hno.1.1.1, hno.1.1.2, hno.1.2⟩
  cases w with
  | addTenant r =>
    refine ⟨happend h.tenants ?_ (fun k hk => (hkeys k hk).1), h.workspaces, h.heads⟩
    simp [TenantRecord.keys]
  | addWorkspace r =>
    refine ⟨h.tenants, happend h.workspaces ?_ (fun k hk => (hkeys k hk).2.1), h.heads⟩
    simp [WorkspaceRecord.keys]
  | addHead r =>
    refine ⟨h.tenants, h.workspaces, happend h.heads ?_ (fun k hk => (hkeys k hk).2.2)⟩
    simp [StreamHeadRecord.keys]
  | updateHead r =>
    refine ⟨h.tenants, h.workspaces, ?_⟩
    show ((db.heads.map _).flatMap StreamHeadRecord.keys).Nodup
    rw [flatMap_keys_updateHead]
    exact h.heads
  | addRow r =>
    rw [write_addRow]
    refine ⟨?_, ?_, ?_⟩
    · rw [tenants_addRow]
      exact h.tenants
    · rw [workspaces_addRow]
      exact h.workspaces
    · rw [heads_addRow]
      exact h.heads

theorem UniqueNames.commit (h : UniqueNames db) (hf : index.Fresh db ws) :
    UniqueNames ((engine d).commit db ws) := by
  induction ws generalizing db with
  | nil => exact h
  | cons w ws ih =>
    obtain ⟨hfirst, hrest⟩ := fresh_split (d := d) [w] hf
    refine ih (h.write (w := w.stored d) ?_) hrest
    intro k hk
    have hkeys : (w.stored d).keys = w.keys := (index_lawful d).keys_stored w
    have hk' : k ∈ w.keys := by
      rw [← hkeys]
      exact hk
    exact hfirst.unused k (by simpa [Index.keysOf] using hk')

theorem UniqueNames.env {G : Db → List Write → Prop} {held : List RowLock} (h : UniqueNames db)
    (henv : Env (engine d) index G held db db') : UniqueNames db' := by
  induction henv with
  | refl => exact h
  | commit _ _ hf _ ih => exact ih.commit hf

section Names

variable {tenantSpec : TenantSpec} {workspaceSpec : WorkspaceSpec} (hu : UniqueNames db)
include hu

/-- **A stored scope is what the rows say of it.** -/
theorem StoredScope.agrees (h : StoredScope db tenantSpec workspaceSpec) :
    Agrees db tenantSpec workspaceSpec := by
  obtain ⟨⟨t, ht, htn⟩, w, hw, hwn⟩ := h
  constructor
  · intro t' ht' hid
    have heq : t' = t := by
      rcases hid with hid | hslug
      · refine eq_of_nodup_flatMap hu.tenants ht' ht (k := .tenantId tenantSpec.id.text) ?_ ?_
        · simp [TenantRecord.keys, hid]
        · simp [TenantRecord.keys, htn.1]
      · refine eq_of_nodup_flatMap hu.tenants ht' ht (k := .tenantSlug tenantSpec.slug) ?_ ?_
        · simp [TenantRecord.keys, hslug]
        · simp [TenantRecord.keys, htn.2.1]
    rw [heq]
    exact htn
  · intro w' hw' hid
    have heq : w' = w := by
      rcases hid with hid | ⟨htenant, hslug⟩
      · refine eq_of_nodup_flatMap hu.workspaces hw' hw (k := .workspaceId workspaceSpec.id.text)
          ?_ ?_
        · simp [WorkspaceRecord.keys, hid]
        · simp [WorkspaceRecord.keys, hwn.1]
      · refine eq_of_nodup_flatMap hu.workspaces hw' hw
          (k := .workspaceSlug tenantSpec.id.text workspaceSpec.slug) ?_ ?_
        · simp [WorkspaceRecord.keys, htenant, hslug]
        · simp [WorkspaceRecord.keys, hwn.2.1, hwn.2.2.1]
    rw [heq]
    exact hwn

/-- **A workspace has exactly the five heads.** -/
theorem headKinds_perm (hi : StoreInv rt db) {scope : Scope} (hw : HasWorkspace db scope) :
    (headKinds db scope.tenantId scope.workspaceId).Perm (streamKinds.map StreamKind.value) := by
  have hkinds := hi.kindsComplete hw
  refine (List.perm_ext_iff_of_nodup ?_ (by decide)).mpr ?_
  · unfold headKinds
    have hpair := ((List.nodup_flatMap.mp hu.heads).2).filter (fun h =>
      h.tenantId == scope.tenantId.text && h.workspaceId == scope.workspaceId.text)
    rw [List.Nodup, List.pairwise_map]
    refine hpair.imp_of_mem ?_
    intro a b ha hb hdisjoint hkind
    have hscope : ∀ h ∈ db.heads.filter (fun h => h.tenantId == scope.tenantId.text &&
        h.workspaceId == scope.workspaceId.text),
        h.tenantId = scope.tenantId.text ∧ h.workspaceId = scope.workspaceId.text := by
      intro h hh
      simpa using (List.mem_filter.mp hh).2
    refine hdisjoint (a := Key.head a.tenantId a.workspaceId a.streamKind) ?_ ?_
    · simp [StreamHeadRecord.keys]
    · simp [StreamHeadRecord.keys, hkind, hscope a ha, hscope b hb]
  · intro v
    constructor
    · intro hv
      obtain ⟨k, hk⟩ := hkinds.1 v hv
      exact List.mem_map.mpr ⟨k, mem_streamKinds k, hk⟩
    · intro hv
      obtain ⟨k, _, rfl⟩ := List.mem_map.mp hv
      exact hkinds.2 k

end Names

/-! ## §2. Commits that leave provisioned scopes alone. -/

/-- **A commit that claims to provision a scope only with its workspace.** -/
structure Governed (rt : Runtime) (d : Dialect) (db : Db) (ws : List Write) : Prop where
  effect : Effect rt d db ws
  claims : ∀ r, .addRow (.receipt r) ∈ ws → r.claimsProvisioning = true →
    ∃ w, .addWorkspace w ∈ ws ∧ w.id = r.workspaceId

theorem governed_nil (rt : Runtime) (d : Dialect) (db : Db) : Governed rt d db [] :=
  ⟨.nothing, by simp⟩

theorem StoreInv.governed {held : List RowLock} (hi : StoreInv rt db)
    (h : Env (engine d) index (Governed rt d) held db db') : StoreInv rt db' := by
  induction h with
  | refl => exact hi
  | commit _ hG hf _ ih => exact ih.effect hG.effect hf

/-- The receipts that claim to provision a stored workspace stay the same. -/
theorem provisioningReceipts_env {held : List RowLock} {scope : Scope}
    (hw : HasWorkspace db scope) (h : Env (engine d) index (Governed rt d) held db db') :
    provisioningReceipts db' scope = provisioningReceipts db scope := by
  induction h with
  | refl => rfl
  | @commit db' ws henv hG hf _ ih =>
    rw [provisioningReceipts_commit, ih]
    intro r hr hin
    by_contra hclaims
    -- it would come with the workspace, whose id is used
    obtain ⟨w, hmem, hid⟩ := hG.claims r hr (by simpa using hclaims)
    obtain ⟨w', hw', _, hid'⟩ := hw.grows (env_grows henv)
    refine hf.unused (.workspaceId w.id) (List.mem_flatMap.mpr ⟨_, hmem, ?_⟩)
      (mem_keys_workspaceId.mpr ⟨w', hw', ?_⟩)
    · simp [Write.keys, WorkspaceRecord.keys]
    · rw [hid', hid, (inScope_ids hin).2]

/-- **A scope as its request asked for it**: its rows, five heads, and one receipt
that claims and binds it. -/
structure ProvisionedScope (rt : Runtime) (d : Dialect) (db : Db) (tenantSpec : TenantSpec)
    (workspaceSpec : WorkspaceSpec) (receipt : ReceiptRecord) : Prop where
  stored : StoredScope db tenantSpec workspaceSpec
  agrees : Agrees db tenantSpec workspaceSpec
  heads : (headKinds db tenantSpec.id workspaceSpec.id).Perm (streamKinds.map StreamKind.value)
  receipts : provisioningReceipts db ⟨tenantSpec.id, workspaceSpec.id⟩ = [receipt]
  sequence : receipt.sequence = 1
  binds : receipt.payloadJson = provisioningPayload tenantSpec workspaceSpec
  closes : ReceiptCloses rt d db tenantSpec workspaceSpec (some receipt.recordHash)

section Scopes

variable {tenantSpec : TenantSpec} {workspaceSpec : WorkspaceSpec} {receipt : ReceiptRecord}

/-- **It stays so**, whatever is committed. -/
theorem ProvisionedScope.env {held : List RowLock} (hi : StoreInv rt db) (hu : UniqueNames db)
    (h : ProvisionedScope rt d db tenantSpec workspaceSpec receipt)
    (henv : Env (engine d) index (Governed rt d) held db db') :
    ProvisionedScope rt d db' tenantSpec workspaceSpec receipt := by
  have hstored := h.stored.grows (env_grows henv)
  have hreceipts := provisioningReceipts_env h.stored.hasWorkspace henv
  refine ⟨hstored, hstored.agrees (hu.env henv),
    headKinds_perm (hu.env henv) (hi.governed henv) hstored.hasWorkspace, ?_, h.sequence, h.binds,
    ?_⟩
  · rw [hreceipts]
    exact h.receipts
  · unfold ReceiptCloses
    rw [hreceipts]
    exact h.closes

theorem ProvisionedScope.evidence (hi : StoreInv rt db)
    (h : ProvisionedScope rt d db tenantSpec workspaceSpec receipt) :
    Evidence rt d db tenantSpec workspaceSpec (some receipt.recordHash) :=
  ⟨h.agrees, h.stored, hi.kindsComplete h.stored.hasWorkspace, h.closes⟩

/-- **The commit that creates a workspace** provisions its scope. -/
theorem ScopeSettled.provisioned {sup : Supply} {r : ScopeProvisioning} (hi : StoreInv rt db)
    (hu : UniqueNames db) (hf : index.Fresh db ws)
    (h : ScopeSettled rt d sup tenantSpec workspaceSpec db ws r) (hc : r.workspaceCreated = true) :
    ∃ receipt, ProvisionedScope rt d ((engine d).commit db ws) tenantSpec workspaceSpec receipt := by
  obtain ⟨receipt, hreceipts, hhash, hrow⟩ := h.commit.provisioningReceipts (d := d) hi hf hc
  have hi' : StoreInv rt ((engine d).commit db ws) :=
    hi.effect (h.commit.provisionCommit.effect hf) hf
  have hcloses := h.commit.receiptCloses (d := d) hi hf hc
  rw [hhash] at hcloses
  refine ⟨receipt.stored d, h.stored, h.stored.agrees (hu.commit hf),
    headKinds_perm (hu.commit hf) hi' h.stored.hasWorkspace, hreceipts, ?_, ?_, hcloses⟩
  · exact (provisioningRow_sealed hrow).sequence
  · obtain ⟨_, _, _, _, rfl⟩ := provisioningRow_ok hrow
    rfl

theorem ScopeSettled.governed {sup : Supply} {r : ScopeProvisioning} (hf : index.Fresh db ws)
    (h : ScopeSettled rt d sup tenantSpec workspaceSpec db ws r) : Governed rt d db ws := by
  refine ⟨h.commit.provisionCommit.effect hf, fun receipt hr _ => ?_⟩
  obtain ⟨hc, receipt', heq, hrow⟩ := h.commit.mem.2.2 _ hr
  cases heq
  exact ⟨_, (h.commit.created hc).1, (provisioningRow_sealed hrow).sealed.workspace.symm⟩

end Scopes

/-- The kind of the receipt that an operation appends for its caller. -/
def StoreOp.receiptKind : StoreOp → Option PyStr
  | .appendReceipt _ draft _ _ => some draft.kind
  | .appendAnalysisBundle _ receiptDraft _ _ _ _ _ => some receiptDraft.kind
  | _ => none

/-- The operation is a request for a scope. -/
def StoreOp.isProvision : StoreOp → Bool
  | .provisionScope _ _ => true
  | _ => false

/-- **Other operations claim to provision nothing.** -/
theorem StoreCall.Commits.claims {c : StoreCall} {r : StoreResult} (h : c.Commits rt db ws r)
    (hop : c.op.isProvision = false) (hkind : c.op.receiptKind ≠ some provisionedKind) :
    ∀ receipt, .addRow (.receipt receipt) ∈ ws → receipt.claimsProvisioning = false := by
  have hdraft : ∀ {id scope n p at_ receipt} {draft : ReceiptDraft},
      receiptRow rt id scope draft n p at_ = .ok receipt → some draft.kind ≠ some provisionedKind →
      receipt.claimsProvisioning = false := by
    intro id scope n p at_ receipt draft hrow hne
    rw [receiptRow_claims hrow]
    simpa using hne
  intro receipt hr
  cases h with
  | tenant => simp at hr
  | workspace _ h =>
    cases h
    rcases workspace_writes hr with hr | ⟨_, _, hr⟩ <;> cases hr
  | provisioning hop' _ =>
    rw [hop'] at hop
    cases hop
  | receipt hop' _ h =>
    rw [hop'] at hkind
    cases h with
    | plain _ _ _ hrow =>
      simp only [mem_appendWrites, List.mem_cons, List.not_mem_nil, or_false, exists_eq_left,
        Row.receipt.injEq] at hr
      rw [hr]
      exact hdraft hrow hkind
    | keyed _ _ _ _ hrow _ =>
      simp only [mem_appendWrites, List.mem_cons, List.not_mem_nil, or_false,
        exists_eq_or_imp, exists_eq_left, Row.receipt.injEq, reduceCtorEq] at hr
      rw [hr]
      exact hdraft hrow hkind
  | bundle hop' _ h =>
    rw [hop'] at hkind
    obtain ⟨_, rows, hc, _⟩ := h
    cases hc with
    | mk _ _ _ _ _ hrows =>
      have heq : receipt = rows.receipt := by simpa [mem_appendWrites, BundleRows.appends] using hr
      rw [heq]
      exact hdraft (bundleRows_ok hrows).1 hkind
  | memory _ h =>
    cases h
    simp [mem_appendWrites] at hr
  | anatomy _ h =>
    cases h
    simp [mem_appendWrites] at hr
  | insert _ h =>
    cases h
    simp [mem_appendWrites] at hr
  | upsert _ h =>
    cases h
    simp [mem_appendWrites] at hr
  | batch _ h =>
    cases h
    simp [mem_appendWrites] at hr

/-! ## §3. A request for a scope that is there. -/

section Existing

variable {F : Exn → Prop} {G : Db → List Write → Prop} {start : Db} {held : List RowLock}
variable {tenantSpec : TenantSpec} {workspaceSpec : WorkspaceSpec} {hash : Option PyStr}
variable {sup sup' : Supply}

/-- The scope stays provisioned, whatever is committed from `start` on. -/
def StaysProvisioned (rt : Runtime) (d : Dialect) (G : Db → List Write → Prop) (start : Db)
    (tenantSpec : TenantSpec) (workspaceSpec : WorkspaceSpec) (hash : Option PyStr) : Prop :=
  ∀ db, Env (engine d) index G [] start db → Evidence rt d db tenantSpec workspaceSpec hash

/-- The answer to a request for it, unless a statement was made to raise. -/
def AnswersExisting (F : Exn → Prop) (tenantSpec : TenantSpec) (workspaceSpec : WorkspaceSpec)
    (hash : Option PyStr) : Except Exn ScopeProvisioning → Prop
  | .ok r => r = ⟨⟨tenantSpec.id, workspaceSpec.id⟩, py "EXISTING", false, false, hash⟩
  | .error e => F e

theorem provisionTenant_existing
    (hev : StaysProvisioned rt d G start tenantSpec workspaceSpec hash) :
    (provisionTenant sup tenantSpec).Sat (engine d) index F G
      (fun a db pending _ => Env (engine d) index G [] start db ∧ tenantSpec.Names a.1 ∧
        a.2 = false ∧ pending = []) (fun e _ => F e) start [] [] := by
  unfold provisionTenant
  refine Body.sat_bind (Body.sat_selectForUpdate ?_ (fun e he _ _ => he))
  intro db₁ henv₁
  rw [Engine.view_nil]
  obtain ⟨t, hfind, hnames⟩ := (hev db₁ henv₁).agrees.findTenant (hev db₁ henv₁).stored.tenant
  rw [hfind]
  show Body.Sat _ _ _ _ _ _ (if _ then _ else _) _ _ _
  rw [if_neg (by simp [hnames.2.1, hnames.2.2])]
  exact ⟨henv₁, hnames, rfl, rfl⟩

theorem provisionWorkspace_existing {t : TenantRecord}
    (hev : StaysProvisioned rt d G start tenantSpec workspaceSpec hash)
    (hstart : Env (engine d) index G [] start db) (ht : tenantSpec.Names t) :
    (provisionWorkspace rt d sup t tenantSpec workspaceSpec).Sat (engine d) index F G
      (fun b _ pending _ => b = (false, hash) ∧ pending = []) (fun e _ => F e) db [] held := by
  unfold provisionWorkspace
  refine Body.sat_bind (Body.sat_selectForUpdate ?_ (fun e he _ _ => he))
  intro db₁ henv₁
  have hev₁ := hev db₁ (env_from hstart henv₁)
  rw [Engine.view_nil]
  obtain ⟨w, hfind, hnames⟩ := hev₁.agrees.findWorkspace hev₁.stored.workspace
  rw [hfind]
  refine Body.sat_bind (Body.sat_select ?_ (fun e he _ _ => he))
  intro db₂ henv₂
  have hstart₂ := env_from (env_from hstart henv₁) henv₂
  rw [Engine.view_nil, assertProvisioningIdentity_ok ht hnames (hev db₂ hstart₂).kinds]
  refine Body.sat_bind (Body.sat_ofExcept (fun _ _ => ?_) (fun e he => by cases he))
  refine Body.sat_bind (Body.sat_select ?_ (fun e he _ _ => he))
  intro db₃ henv₃
  have hcloses := (hev db₃ (env_from hstart₂ henv₃)).receipt
  unfold ReceiptCloses at hcloses
  rw [Engine.view_nil, hcloses]
  exact ⟨rfl, rfl⟩

/-- **A request for a provisioned scope answers EXISTING** and commits nothing. -/
theorem provisionScope_existing (hF : ∀ e, F e → Unhandled e)
    (hown : workspaceSpec.tenantId = tenantSpec.id) (hnil : ∀ db, G db [])
    (hev : StaysProvisioned rt d G start tenantSpec workspaceSpec hash) :
    Sat (engine d) index F G
      (fun r done _ => (∀ c ∈ done, c.2 = []) ∧
        AnswersExisting F tenantSpec workspaceSpec hash r)
      (provisionScope rt d sup sup' tenantSpec workspaceSpec) start [] [] [] := by
  have honce : Sat (engine d) index F G
      (fun r done _ => (∀ c ∈ done, c.2 = []) ∧
        AnswersExisting F tenantSpec workspaceSpec hash r ∧ ∀ e, r = .error e → done = [])
      (provisionScopeOnce rt d sup tenantSpec workspaceSpec) start [] [] [] := by
    unfold provisionScopeOnce
    rw [if_neg (by simp [hown])]
    have hraise : ∀ e (db : Db), F e → ∀ db', Env (engine d) index G [] db db' →
        (∀ c ∈ ([] : List (Db × List Write)), c.2 = []) ∧
          AnswersExisting F tenantSpec workspaceSpec hash (.error e) ∧
          ∀ e', (Except.error e : Except Exn ScopeProvisioning) = .error e' →
            ([] : List (Db × List Write)) = [] :=
      fun e db he _ _ => ⟨by simp, he, fun _ _ => rfl⟩
    refine sat_transaction (Body.sat_bind ((provisionTenant_existing hev).imp ?_ hraise))
    rintro ⟨t, c⟩ db₁ pre held₁ ⟨hstart₁, hnames, hc, hpre⟩
    simp only at hnames hc
    subst hc hpre
    refine Body.sat_bind ((provisionWorkspace_existing hev hstart₁ hnames).imp ?_ hraise)
    rintro b db₂ pending held₂ ⟨rfl, rfl⟩ db₃ henv₃ _
    exact ⟨⟨hnil db₃, fun db₄ _ => ⟨by simp, rfl, by simp⟩⟩, fun e he => hraise e db₃ he⟩
  unfold provisionScope provisionAttempt
  refine sat_tryCatch (honce.imp ?_)
  rintro (e | r) done db₁ ⟨hnone, hanswer, hdone⟩
  · -- what was made to raise is passed on
    show Sat _ _ _ _ _ (if _ then _ else _) _ _ _ _
    rw [if_neg (by simp [(hF e hanswer).1]), hdone e rfl]
    exact ⟨rfl, rfl, fun _ _ => ⟨by simp, hanswer⟩⟩
  · exact ⟨rfl, rfl, fun _ _ => ⟨hnone, hanswer⟩⟩

end Existing

/-! ## §4. Any clients at once. -/

/-- A client of the store: a call that may write, or a read session of any kind. -/
inductive Client (ρ : Type) where
  | call (c : StoreCall)
  | reader (b : StoreBody ρ) (h : b.ReadOnly)

namespace Client

variable {ρ : Type}

def prog (rt : Runtime) (d : Dialect) : Client ρ → StoreProg (StoreResult ⊕ ρ)
  | .call c => (c.prog rt d).bind (fun r => .ret (.inl r))
  | .reader b _ => (readSession b).bind (fun r => .ret (.inr r))

/-- The client asks for this scope. -/
def Requests (x : Client ρ) (tenantSpec : TenantSpec) (workspaceSpec : WorkspaceSpec) : Prop :=
  ∃ sup retry, x = .call ⟨.provisionScope tenantSpec workspaceSpec, sup, retry⟩

/-- The client appends a receipt of kind `scope.provisioned` of its own. -/
def Claims : Client ρ → Prop
  | .call c => c.op.receiptKind = some provisionedKind
  | .reader _ _ => False

/-- What a client may commit. -/
inductive Commits (rt : Runtime) (d : Dialect) : Client ρ → Db → List Write → Prop
  | scope {tenantSpec workspaceSpec sup retry db ws r} :
      workspaceSpec.tenantId = tenantSpec.id →
      ScopeProvisioned rt d sup retry tenantSpec workspaceSpec db ws r →
      Commits rt d (.call ⟨.provisionScope tenantSpec workspaceSpec, sup, retry⟩) db ws
  | other {c db ws r} : c.op.isProvision = false → c.Commits rt db ws r →
      Commits rt d (.call c) db ws

theorem Commits.governed {x : Client ρ} (h : x.Commits rt d db ws) (hno : ¬ x.Claims)
    (hf : index.Fresh db ws) : Governed rt d db ws := by
  cases h with
  | scope _ h =>
    rcases h with h | h
    · exact h.governed hf
    · exact h.governed hf
  | other hop h =>
    refine ⟨h.effect hf, fun receipt hr hclaims => ?_⟩
    rw [h.claims hop hno receipt hr] at hclaims
    cases hclaims

/-- What a request commits leaves its scope stored. -/
theorem Commits.settled {x : Client ρ} {tenantSpec : TenantSpec} {workspaceSpec : WorkspaceSpec}
    (h : x.Commits rt d db ws) (hx : x.Requests tenantSpec workspaceSpec) :
    workspaceSpec.tenantId = tenantSpec.id ∧
      ∃ sup r, ScopeSettled rt d sup tenantSpec workspaceSpec db ws r := by
  obtain ⟨sup, retry, rfl⟩ := hx
  cases h with
  | scope hown h =>
    rcases h with h | h
    · exact ⟨hown, _, _, h⟩
    · exact ⟨hown, _, _, h⟩
  | other hop _ => cases hop

/-- How a client ends. -/
def Post (rt : Runtime) (d : Dialect) (x : Client ρ) :
    Except Exn (StoreResult ⊕ ρ) → List (Db × List Write) → Db → Prop :=
  Outcome (engine d) index (Governed rt d) (fun db ws _ => x.Commits rt d db ws)
    (fun _ db => ∀ tenantSpec workspaceSpec, x.Requests tenantSpec workspaceSpec →
      StoredScope db tenantSpec workspaceSpec) (fun _ => True)

end Client

/-- A request whose workspace belongs to another tenant is refused at once. -/
theorem provisionScope_mismatch {tenantSpec : TenantSpec} {workspaceSpec : WorkspaceSpec}
    (sup sup' : Supply) (h : workspaceSpec.tenantId ≠ tenantSpec.id) :
    provisionScope rt d sup sup' tenantSpec workspaceSpec = .raise (.provisioningConflict
      (py "workspace tenant does not match the tenant identity")) := by
  unfold provisionScope provisionAttempt provisionScopeOnce
  rw [if_pos h]
  rfl

section Clients

variable {F : Exn → Prop} {ρ : Type}

/-- **Every client keeps its contract.** -/
theorem Client.sat (hF : ∀ e, F e → Unhandled e) {x : Client ρ} (hno : ¬ x.Claims) (db : Db) :
    Sat (engine d) index F (Governed rt d) (x.Post rt d) (x.prog rt d) db [] [] [] := by
  cases x with
  | reader b h =>
    refine (h.sat_nothing db [] []).map ?_
    rintro (e | r) done db' rfl
    · exact .failed trivial
    · refine .replayed ?_ (by simp)
      rintro _ _ ⟨_, _, hx⟩
      cases hx
  | call c =>
    cases hop : c.op.isProvision with
    | false =>
      refine (c.sat (F := F) db (fun db ws r h hf => (Commits.other hop h).governed hno hf)
        (governed_nil rt d)).map ?_
      intro r done db' h
      refine h.map (fun _ _ _ hc => .other hop hc) (fun _ _ _ => ?_) (fun _ _ => trivial)
      rintro _ _ ⟨_, _, hx⟩
      cases hx
      cases hop
    | true =>
      obtain ⟨op, sup, retry⟩ := c
      cases op with
      | provisionScope tenantSpec workspaceSpec =>
        unfold Client.prog StoreCall.prog
        simp only
        by_cases hown : workspaceSpec.tenantId = tenantSpec.id
        · refine Sat.map ((provisionScope_contract hF hown (fun db ws r h hf =>
            (Commits.scope hown h).governed hno hf) (governed_nil rt d)).map ?_)
            (fun r done db' h => (h : Client.Post (ρ := ρ) rt d _ (r.map .inl) done db'))
          rintro (e | r) done db' h
          · obtain ⟨rfl, _⟩ := h
            exact .failed trivial
          · change Outcome _ _ _ _ _ _ _ _ _ at h
            refine (h.map (f := fun r => Sum.inl (StoreResult.provisioning r))
              (fun _ _ _ hc => .scope hown hc) (fun _ _ hp => ?_) (fun _ he => he.elim))
            rintro _ _ ⟨_, _, hx⟩
            cases hx
            exact hp.2
        · rw [provisionScope_mismatch sup retry hown]
          exact sat_raise_outcome trivial
      | _ => cases hop

/-- The answer of a client whose scope is provisioned. -/
def Client.AnswersExisting (F : Exn → Prop) (tenantSpec : TenantSpec)
    (workspaceSpec : WorkspaceSpec) (hash : Option PyStr) : Except Exn (StoreResult ⊕ ρ) → Prop
  | .ok r => r = .inl (.provisioning
      ⟨⟨tenantSpec.id, workspaceSpec.id⟩, py "EXISTING", false, false, hash⟩)
  | .error e => F e

theorem Client.existing {G : Db → List Write → Prop} {x : Client ρ} {tenantSpec : TenantSpec}
    {workspaceSpec : WorkspaceSpec} {hash : Option PyStr} (hF : ∀ e, F e → Unhandled e)
    (hx : x.Requests tenantSpec workspaceSpec) (hown : workspaceSpec.tenantId = tenantSpec.id)
    (hnil : ∀ db, G db []) (hev : StaysProvisioned rt d G db tenantSpec workspaceSpec hash) :
    Sat (engine d) index F G
      (fun r done _ => (∀ c ∈ done, c.2 = []) ∧
        Client.AnswersExisting F tenantSpec workspaceSpec hash r)
      (x.prog rt d) db [] [] [] := by
  obtain ⟨sup, retry, rfl⟩ := hx
  refine Sat.map ((provisionScope_existing hF hown hnil hev).map ?_) (fun r done _ h =>
    (h : (∀ c ∈ done, c.2 = []) ∧
      Client.AnswersExisting (ρ := ρ) F tenantSpec workspaceSpec hash (r.map .inl)))
  rintro (e | r) done _ ⟨hnone, hanswer⟩
  · exact ⟨hnone, hanswer⟩
  · change r = _ at hanswer
    rw [hanswer]
    exact ⟨hnone, rfl⟩

variable {ι : Type} [DecidableEq ι] {clients : ι → Client ρ}
variable {c c' : Config Db Write RowLock Exn (StoreResult ⊕ ρ) ι}

theorem clients_inv (hF : ∀ e, F e → Unhandled e) (hno : ∀ i, ¬ (clients i).Claims)
    (hreach : Reach (engine d) index F (.start .empty (fun i => (clients i).prog rt d)) c) :
    Inv (engine d) index F (Governed rt d) (fun i => (clients i).Post rt d) .empty c :=
  reach_inv (index_lawful d) (fun i => Client.sat hF (hno i) _) hreach

section Reached

variable (hinv : Inv (engine d) index F (Governed rt d) (fun i => (clients i).Post rt d) .empty c)
variable {tenantSpec : TenantSpec} {workspaceSpec : WorkspaceSpec}
include hinv

theorem clients_storeInv : StoreInv rt c.db := (storeInv_empty rt).governed hinv.path

theorem clients_uniqueNames : UniqueNames c.db := uniqueNames_empty.env hinv.path

/-- **A workspace that a request created stays provisioned** as it was asked for. -/
theorem clients_provisioned {e : CommitEvent Db Write ι} (he : e ∈ c.log)
    (hreq : (clients e.who).Requests tenantSpec workspaceSpec)
    (hw : ∃ row, Write.addWorkspace row ∈ e.rows) :
    ∃ receipt, ProvisionedScope rt d c.db tenantSpec workspaceSpec receipt := by
  obtain ⟨row, hrow⟩ := hw
  obtain ⟨_, _, hcommits⟩ := hinv.commit_once (index_lawful d) he (List.ne_nil_of_mem hrow)
  obtain ⟨_, _, r, hsettled⟩ := hcommits.settled hreq
  have hi : StoreInv rt e.before := (storeInv_empty rt).governed (hinv.logFrom e he)
  have hu : UniqueNames e.before := uniqueNames_empty.env (hinv.logFrom e he)
  have hf := (hinv.logOk e he).2
  obtain ⟨receipt, hprov⟩ := hsettled.provisioned hi hu hf (hsettled.commit.mem.2.1 row hrow).1
  exact ⟨receipt, hprov.env (hi.effect (hinv.logOk e he).1.effect hf) (hu.commit hf)
    (hinv.logPath e he)⟩

/-- **A request that has returned or committed agrees with what is stored.** -/
theorem clients_agree {j : ι} (hreq : (clients j).Requests tenantSpec workspaceSpec)
    (h : (∃ r, (c.calls j).prog = .ret r) ∨ ∃ e ∈ c.log, e.who = j ∧ e.rows ≠ []) :
    Agrees c.db tenantSpec workspaceSpec := by
  refine StoredScope.agrees (clients_uniqueNames hinv) ?_
  rcases h with ⟨r, hp⟩ | ⟨e, he, rfl, hne⟩
  · have hpost : Client.Post rt d (clients j) (.ok r) (commitsOf c.log j) c.db := hinv.returned hp
    unfold Client.Post at hpost
    generalize commitsOf c.log j = done at hpost
    cases hpost with
    | replayed h _ => exact h _ _ hreq
    | committed h _ henv =>
      obtain ⟨_, _, _, hsettled⟩ := h.settled hreq
      exact hsettled.stored.grows (env_grows henv)
  · obtain ⟨_, _, hcommits⟩ := hinv.commit_once (index_lawful d) he hne
    obtain ⟨_, _, _, hsettled⟩ := hcommits.settled hreq
    exact hsettled.stored.grows (env_grows (hinv.logPath e he))

/-- **A client that has not begun** where a scope is provisioned keeps the promise
of a request for it. -/
theorem clients_existing (hF : ∀ e, F e → Unhandled e) {j : ι} {hash : Option PyStr}
    (hreq : (clients j).Requests tenantSpec workspaceSpec)
    (hown : workspaceSpec.tenantId = tenantSpec.id) (hj : c.Unstarted (fun i => (clients i).prog rt d) j)
    (hev : StaysProvisioned rt d (Governed rt d) c.db tenantSpec workspaceSpec hash)
    (hreach : Reach (engine d) index F c c') :
    (∀ r, (c'.calls j).prog = .ret r → r = .inl (.provisioning
      ⟨⟨tenantSpec.id, workspaceSpec.id⟩, py "EXISTING", false, false, hash⟩)) ∧
    (∀ e, (c'.calls j).prog = .raise e → F e) ∧ ∀ e ∈ c'.log, e.who = j → e.rows = [] := by
  have hinv' := hinv.unstarted (index_lawful d) hj
    (Client.existing hF hreq hown (governed_nil rt d) hev) hreach
  refine ⟨fun r hp => ?_, fun e hp => ?_, ?_⟩
  · have hpost := hinv'.returned hp
    rw [if_pos rfl] at hpost
    exact hpost.2
  · have hpost := hinv'.raised hp
    rw [if_pos rfl] at hpost
    exact hpost.2
  · rintro e he rfl
    obtain ⟨_, more, _, hpost⟩ := hinv'.commits_begin (index_lawful d) e.who
    rw [if_pos rfl] at hpost
    exact hpost.1 _ (List.mem_append_left more (mem_commitsOf he))

end Reached

theorem Agrees.shrink {tenantSpec : TenantSpec} {workspaceSpec : WorkspaceSpec}
    (h : Agrees db' tenantSpec workspaceSpec) (hg : Grows db db') :
    Agrees db tenantSpec workspaceSpec :=
  ⟨fun t ht => h.tenant t (hg.tenants.subset ht),
    fun w hw => h.workspace w (hg.workspaces.subset hw)⟩

/-- A request that disagrees with what is stored neither returns nor commits. -/
theorem clients_refused
    (hinv : Inv (engine d) index F (Governed rt d) (fun i => (clients i).Post rt d) .empty c)
    {j : ι} {tenantSpec : TenantSpec} {workspaceSpec : WorkspaceSpec}
    (hreq : (clients j).Requests tenantSpec workspaceSpec)
    (hno : ¬ Agrees c.db tenantSpec workspaceSpec) (hreach : Reach (engine d) index F c c') :
    (∀ r, (c'.calls j).prog ≠ .ret r) ∧ ∀ e ∈ c'.log, e.who = j → e.rows = [] := by
  have hinv' := hinv.reach (index_lawful d) hreach
  have hgrows : Grows c.db c'.db := env_grows (hinv.reach_env (index_lawful d) hreach)
  refine ⟨fun r hp => ?_, fun e he hwho => ?_⟩
  · exact hno ((clients_agree hinv' hreq (.inl ⟨r, hp⟩)).shrink hgrows)
  · by_contra hne
    exact hno ((clients_agree hinv' hreq (.inr ⟨e, he, hwho, hne⟩)).shrink hgrows)

end Clients

/-- **Provisioning is safe.**  Whatever clients do at once, none of them appending
a receipt of kind `scope.provisioned` of its own: a workspace that a request
created is, in every later state, as the request asked for it, and the same
request, once it is made again, answers EXISTING with the hash of its receipt
and commits nothing; a request that disagrees with what is stored does not
return and commits nothing. -/
theorem provision_scope_safe (rt : Runtime) (d : Dialect) (F : Exn → Prop)
    (hF : ∀ e, F e → Unhandled e) {ι ρ : Type} [DecidableEq ι] (clients : ι → Client ρ)
    (hno : ∀ i, ¬ (clients i).Claims) (c : Config Db Write RowLock Exn (StoreResult ⊕ ρ) ι)
    (hreach : Reach (engine d) index F (.start .empty (fun i => (clients i).prog rt d)) c) :
    (∀ e ∈ c.log, ∀ tenantSpec workspaceSpec,
      (clients e.who).Requests tenantSpec workspaceSpec →
      (∃ row, Write.addWorkspace row ∈ e.rows) →
      ∃ receipt, ProvisionedScope rt d c.db tenantSpec workspaceSpec receipt ∧
        ∀ j, (clients j).Requests tenantSpec workspaceSpec →
          c.Unstarted (fun i => (clients i).prog rt d) j →
          let answer : StoreResult ⊕ ρ := .inl (.provisioning ⟨⟨tenantSpec.id, workspaceSpec.id⟩,
            py "EXISTING", false, false, some receipt.recordHash⟩)
          (∀ c', Reach (engine d) index F c c' →
            (∀ r, (c'.calls j).prog = .ret r → r = answer) ∧
            (∀ e, (c'.calls j).prog = .raise e → F e) ∧ ∀ e ∈ c'.log, e.who = j → e.rows = []) ∧
          (c.Alone j → ∃ c', Reach (engine d) index F c c' ∧ (c'.calls j).prog = .ret answer)) ∧
    (∀ j tenantSpec workspaceSpec, (clients j).Requests tenantSpec workspaceSpec →
      ¬ Agrees c.db tenantSpec workspaceSpec →
      (∀ c', Reach (engine d) index F c c' →
        (∀ r, (c'.calls j).prog ≠ .ret r) ∧ ∀ e ∈ c'.log, e.who = j → e.rows = []) ∧
      (c.Unstarted (fun i => (clients i).prog rt d) j → c.Alone j →
        ∃ c' e, Reach (engine d) index F c c' ∧ (c'.calls j).prog = .raise e)) := by
  have hinv := clients_inv hF hno hreach
  constructor
  · intro e he tenantSpec workspaceSpec hreq hw
    obtain ⟨receipt, hprov⟩ := clients_provisioned hinv he hreq hw
    have hown : workspaceSpec.tenantId = tenantSpec.id := by
      obtain ⟨row, hrow⟩ := hw
      obtain ⟨_, _, hcommits⟩ := hinv.commit_once (index_lawful d) he (List.ne_nil_of_mem hrow)
      exact (hcommits.settled hreq).1
    refine ⟨receipt, hprov, fun j hj hun => ?_⟩
    have hi := clients_storeInv hinv
    have hev : StaysProvisioned rt d (Governed rt d) c.db tenantSpec workspaceSpec
        (some receipt.recordHash) := fun db henv =>
      (hprov.env hi (clients_uniqueNames hinv) henv).evidence (hi.governed henv)
    refine ⟨fun c' hc' => clients_existing hinv hF hj hown hun hev hc', fun halone => ?_⟩
    obtain ⟨c', r, _, _, hc', hp, _, hanswer⟩ := reach_alone (F := F) (index_lawful d) hun.whole
      halone (Client.existing (fun _ h => h.elim) hj hown (governed_nil rt d) hev)
    cases r with
    | ok r => exact ⟨c', hc', hp.trans (congrArg Prog.ret hanswer)⟩
    | error e => cases hanswer
  · intro j tenantSpec workspaceSpec hreq hdisagrees
    refine ⟨fun c' hc' => clients_refused hinv hreq hdisagrees hc', fun hun halone => ?_⟩
    obtain ⟨c', r, _, _, hc', hp, _⟩ := reach_alone (F := F) (index_lawful d) hun.whole halone
      (Client.sat (fun _ h => h.elim) (hno j) c.db)
    cases r with
    | ok r => exact absurd hp ((clients_refused hinv hreq hdisagrees hc').1 r)
    | error e => exact ⟨c', e, hc', hp⟩

/-- Two requests for one scope, one that calls its tenant by another name, and a
receipt. -/
def sampleClients (i : Fin 4) : Client Unit :=
  let workspaceSpec : WorkspaceSpec :=
    ⟨sampleScope.tenantId, py "workspace", py "Workspace", sampleScope.workspaceId⟩
  let sup : Supply := .sample (py "a" ++ decimal i.val)
  match i with
  | 0 | 1 => .call ⟨.provisionScope sampleTenantSpec workspaceSpec, sup, sup⟩
  | 2 => .call ⟨.provisionScope { sampleTenantSpec with name := py "Other" } workspaceSpec, sup, sup⟩
  | 3 => .call ⟨.appendReceipt sampleScope sampleReceipt none none, sup, sup⟩

/-- The first request and then the receipt. -/
def sampleProvisioned : Config Db Write RowLock Exn (StoreResult ⊕ Unit) (Fin 4) :=
  run (engine .sqlite) index (List.finRange 4) (List.replicate 13 0 ++ List.replicate 7 3)
    (.start .empty (fun i => (sampleClients i).prog .ascii .sqlite))

theorem sampleProvisioned_unstarted {j : Fin 4} (hj : j = 1 ∨ j = 2) :
    sampleProvisioned.Unstarted (fun i => (sampleClients i).prog .ascii .sqlite) j := by
  refine run_unstarted _ (Config.unstarted_start _ _ j) ?_
  rcases hj with rfl | rfl
  · decide
  · decide

theorem sampleProvisioned_alone (j : Fin 4) : sampleProvisioned.Alone j := by
  have hidle : ∀ k, (sampleProvisioned.calls k).pending.isEmpty = true ∧
      (sampleProvisioned.calls k).held.isEmpty = true := by decide +kernel
  intro k _
  exact ⟨List.isEmpty_iff.mp (hidle k).1, List.isEmpty_iff.mp (hidle k).2⟩


/-- The first request has created its workspace. -/
theorem sampleProvisioned_created : ∃ e ∈ sampleProvisioned.log, e.who = 0 ∧
    ∃ row, Write.addWorkspace row ∈ e.rows := by
  have hany : (sampleProvisioned.log.any (fun e => e.who == 0 && e.rows.any (fun w => match w with
      | .addWorkspace _ => true
      | _ => false))) = true := by decide +kernel
  obtain ⟨e, he, hwho⟩ := List.any_eq_true.mp hany
  rw [Bool.and_eq_true, beq_iff_eq] at hwho
  obtain ⟨w, hw, hrow⟩ := List.any_eq_true.mp hwho.2
  cases w with
  | addWorkspace row => exact ⟨e, he, hwho.1, row, hw⟩
  | _ => cases hrow

/-- The second request finds the scope, and the one that disagrees is refused. -/
theorem provision_scope_safe_sample : ∃ c',
    Reach (engine .sqlite) index noFault sampleProvisioned c' ∧
      (∃ receipt, provisioningReceipts sampleProvisioned.db sampleScope = [receipt] ∧
        (c'.calls 1).prog = .ret (.inl (.provisioning
          ⟨sampleScope, py "EXISTING", false, false, some receipt.recordHash⟩))) ∧
      ∃ c'' e, Reach (engine .sqlite) index noFault sampleProvisioned c'' ∧
        (c''.calls 2).prog = .raise e := by
  have hreach : Reach (engine .sqlite) index noFault
      (.start .empty (fun i => (sampleClients i).prog .ascii .sqlite)) sampleProvisioned :=
    reach_run noFault List.mem_finRange _ _
  have hno : ∀ i, ¬ (sampleClients i).Claims := by
    intro i
    match i with
    | 0 | 1 | 2 => exact fun h => by cases h
    | 3 =>
      show some sampleReceipt.kind ≠ some provisionedKind
      decide +kernel
  obtain ⟨hcreated, hrefused⟩ := provision_scope_safe .ascii .sqlite noFault (fun _ h => h.elim)
    sampleClients hno sampleProvisioned hreach
  obtain ⟨e, he, hwho, hrow⟩ := sampleProvisioned_created
  obtain ⟨receipt, hprov, hagain⟩ := hcreated e he sampleTenantSpec
    ⟨sampleScope.tenantId, py "workspace", py "Workspace", sampleScope.workspaceId⟩
    (by rw [hwho]; exact ⟨_, _, rfl⟩) hrow
  obtain ⟨c', hc', hp⟩ := (hagain 1 ⟨_, _, rfl⟩ (sampleProvisioned_unstarted (.inl rfl))).2
    (sampleProvisioned_alone 1)
  refine ⟨c', hc', ⟨receipt, hprov.receipts, hp⟩, ?_⟩
  refine (hrefused 2 _ _ ⟨_, _, rfl⟩ ?_).2 (sampleProvisioned_unstarted (.inr rfl))
    (sampleProvisioned_alone 2)
  -- the stored tenant has the other name
  intro hagrees
  obtain ⟨t, ht, hid, hslug, hname⟩ := hprov.stored.tenant
  have hother := (hagrees.tenant t ht (.inl hid)).2.2
  rw [hname] at hother
  revert hother
  decide +kernel

end Lyte
