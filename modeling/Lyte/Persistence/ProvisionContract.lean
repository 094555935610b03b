import Lyte.Persistence.ProvisionEvidence

/-
  Lyte.Persistence.ProvisionContract — the contract of `provision_scope`.

  Whatever other calls commit meanwhile, a request that returns finds its
  tenant and its workspace stored, as it asked for them, and has committed
  nothing or what was missing.  Where it raises it has committed nothing, and
  over stored rows that admit it (`AdmitsScope`) the reason is one of a few:

      a fault from outside, or a payload that has no canonical text;
      another receipt has the id it drew;
      another request created the tenant first and, between two reads of this
      one, a third request created the workspace.
-/

namespace Lyte

open Transact

variable {rt : Runtime} {d : Dialect} {F : Exn → Prop} {G : Db → List Write → Prop}
variable {db db' start : Db} {held : List RowLock} {sup sup' : Supply}
variable {tenantSpec : TenantSpec} {workspaceSpec : WorkspaceSpec}

/-! ## §1. Stored rows that admit a request. -/

/-- The tenant of a request is stored. -/
def HasTenant (db : Db) (spec : TenantSpec) : Prop := ∃ t ∈ db.tenants, t.id = spec.id.text

/-- A receipt with this id is stored. -/
def IdTaken (db : Db) (id : PyStr) : Prop := ∃ r ∈ db.receipts, r.id = id

/-- **The stored rows admit a request**: nothing disagrees with it, and where its
workspace is there, so are its tenant and a receipt that closes. -/
structure AdmitsScope (rt : Runtime) (d : Dialect) (db : Db) (tenantSpec : TenantSpec)
    (workspaceSpec : WorkspaceSpec) : Prop where
  inv : StoreInv rt db
  agrees : Agrees db tenantSpec workspaceSpec
  owned : ∀ w ∈ db.workspaces, w.id = workspaceSpec.id.text → HasTenant db tenantSpec
  closes : HasWorkspace db ⟨tenantSpec.id, workspaceSpec.id⟩ →
    ∃ hash, ReceiptCloses rt d db tenantSpec workspaceSpec hash

theorem HasTenant.grows (h : HasTenant db tenantSpec) (hg : Grows db db') :
    HasTenant db' tenantSpec := by
  obtain ⟨t, ht, hid⟩ := h
  exact ⟨t, hg.tenants.subset ht, hid⟩

theorem IdTaken.grows {id : PyStr} (h : IdTaken db id) (hg : Grows db db') : IdTaken db' id := by
  obtain ⟨r, hr, hid⟩ := h
  exact ⟨r, hg.receipts.subset hr, hid⟩

section Admitted

variable (h : AdmitsScope rt d db tenantSpec workspaceSpec)
include h

/-- A stored workspace with the request's id is its workspace. -/
theorem AdmitsScope.hasWorkspace_of_mem {w : WorkspaceRecord} (hw : w ∈ db.workspaces)
    (hid : w.id = workspaceSpec.id.text ∨
      (w.tenantId = tenantSpec.id.text ∧ w.slug = workspaceSpec.slug)) :
    HasWorkspace db ⟨tenantSpec.id, workspaceSpec.id⟩ := by
  obtain ⟨hwid, htenant, _⟩ := h.agrees.workspace w hw hid
  exact ⟨w, hw, htenant, hwid⟩

theorem AdmitsScope.storedTenant (ht : HasTenant db tenantSpec) :
    ∃ t ∈ db.tenants, tenantSpec.Names t := by
  obtain ⟨t, hmem, hid⟩ := ht
  exact ⟨t, hmem, h.agrees.tenant t hmem (.inl hid)⟩

theorem AdmitsScope.hasTenant (hw : HasWorkspace db ⟨tenantSpec.id, workspaceSpec.id⟩) :
    HasTenant db tenantSpec := by
  obtain ⟨w, hmem, _, hid⟩ := hw
  exact h.owned w hmem hid

/-- **A workspace that is stored is provisioned.** -/
theorem AdmitsScope.evidence (hw : HasWorkspace db ⟨tenantSpec.id, workspaceSpec.id⟩) :
    ∃ hash, Evidence rt d db tenantSpec workspaceSpec hash := by
  obtain ⟨hash, hcloses⟩ := h.closes hw
  have ht := h.storedTenant (h.hasTenant hw)
  have hkinds := h.inv.kindsComplete hw
  obtain ⟨w, hmem, _, hid⟩ := hw
  exact ⟨hash, h.agrees, ⟨ht, w, hmem, h.agrees.workspace w hmem (.inl hid)⟩, hkinds, hcloses⟩

/-- An index entry that the tenant of the request would need. -/
theorem AdmitsScope.hasTenant_of_key {at_ : Instant} {k : Key}
    (hk : k ∈ (tenantRow tenantSpec at_).keys) (hu : k ∈ db.keys) : HasTenant db tenantSpec := by
  unfold TenantRecord.keys tenantRow at hk
  simp only [List.mem_cons, List.not_mem_nil, or_false] at hk
  rcases hk with rfl | rfl
  · exact mem_keys_tenantId.mp hu
  · obtain ⟨t, ht, hslug⟩ := mem_keys_tenantSlug.mp hu
    exact ⟨t, ht, (h.agrees.tenant t ht (.inr hslug)).1⟩

/-- An index entry that its workspace would need. -/
theorem AdmitsScope.hasWorkspace_of_key {at_ : Instant} {k : Key}
    (hk : k ∈ (workspaceRow tenantSpec.id workspaceSpec at_).keys) (hu : k ∈ db.keys) :
    HasWorkspace db ⟨tenantSpec.id, workspaceSpec.id⟩ := by
  unfold WorkspaceRecord.keys workspaceRow at hk
  simp only [List.mem_cons, List.not_mem_nil, or_false] at hk
  rcases hk with rfl | rfl
  · obtain ⟨w, hw, hid⟩ := mem_keys_workspaceId.mp hu
    exact h.hasWorkspace_of_mem hw (.inl hid)
  · obtain ⟨w, hw, hslug⟩ := mem_keys_workspaceSlug.mp hu
    exact h.hasWorkspace_of_mem hw (.inr hslug)

/-- A head of the workspace. -/
theorem AdmitsScope.hasWorkspace_of_head {k : PyStr}
    (hu : Key.head tenantSpec.id.text workspaceSpec.id.text k ∈ db.keys) :
    HasWorkspace db ⟨tenantSpec.id, workspaceSpec.id⟩ := by
  obtain ⟨x, hx, hnames⟩ := mem_keys_head.mp hu
  simp only [StreamHeadRecord.names, Bool.and_eq_true, beq_iff_eq] at hnames
  have hscope := (h.inv.heads x hx).1
  rw [hnames.1.1, hnames.1.2] at hscope
  exact hscope

/-- An index entry that its receipt would need. -/
theorem AdmitsScope.of_receipt_key {r : ReceiptRecord} {k : Key}
    (ht : r.tenantId = tenantSpec.id.text) (hw : r.workspaceId = workspaceSpec.id.text)
    (hk : k ∈ (Row.receipt r).keys) (hu : k ∈ db.keys) :
    HasWorkspace db ⟨tenantSpec.id, workspaceSpec.id⟩ ∨ IdTaken db r.id := by
  unfold Row.keys Row.ownKeys at hk
  simp only [List.cons_append, List.nil_append, List.mem_cons, List.not_mem_nil, or_false,
    Row.stream_receipt, Row.mixin_receipt] at hk
  have hscope : ∀ s, ∀ x ∈ db.rows s, x.mixin.tenantId = r.tenantId →
      x.mixin.workspaceId = r.workspaceId →
      HasWorkspace db ⟨tenantSpec.id, workspaceSpec.id⟩ := by
    intro s x hx hxt hxw
    have hin := h.inv.inScope s x hx
    rw [hxt, hxw, ht, hw] at hin
    exact hin
  rcases hk with rfl | rfl | rfl
  · exact .inr (mem_keys_receiptId.mp hu)
  · obtain ⟨s, x, hx, hkx⟩ := mem_keys_row (.inr (.inl ⟨_, _, _, _, rfl⟩)) hu
    rcases mem_row_keys hkx with heq | ⟨_, heq⟩ | ⟨_, heq⟩ | ⟨_, heq⟩ | ⟨_, _, _, heq⟩
    · cases heq
    · injection heq with _ hxt hxw
      exact .inl (hscope s x hx hxt.symm hxw.symm)
    all_goals cases heq
  · obtain ⟨s, x, hx, hkx⟩ := mem_keys_row (.inr (.inr ⟨_, _, _, _, rfl⟩)) hu
    rcases mem_row_keys hkx with heq | ⟨_, heq⟩ | ⟨_, heq⟩ | ⟨_, heq⟩ | ⟨_, _, _, heq⟩
    · cases heq
    · cases heq
    · injection heq with _ hxt hxw
      exact .inl (hscope s x hx hxt.symm hxw.symm)
    all_goals cases heq

end Admitted

/-! ## §2. What a transaction sees of its own rows. -/

theorem mem_workspaces_view {w : WorkspaceRecord} {ws : List Write} (h : .addWorkspace w ∈ ws) :
    w ∈ ((engine d).view db ws).workspaces := by
  obtain ⟨pre, post, rfl⟩ := List.append_of_mem h
  rw [Engine.view_append, ← List.singleton_append, Engine.view_append]
  refine (view_grows d _ post).workspaces.subset ?_
  show w ∈ (((engine d).view db pre).write (.addWorkspace w)).workspaces
  simp [Db.write]

theorem mem_tenants_view {t : TenantRecord} {ws : List Write} (h : .addTenant t ∈ ws) :
    t ∈ ((engine d).view db ws).tenants := by
  obtain ⟨pre, post, rfl⟩ := List.append_of_mem h
  rw [Engine.view_append, ← List.singleton_append, Engine.view_append]
  refine (view_grows d _ post).tenants.subset ?_
  show t ∈ (((engine d).view db pre).write (.addTenant t)).tenants
  simp [Db.write]

/-- Rows that were written are there after the commit. -/
theorem mem_workspaces_commit {w : WorkspaceRecord} {ws : List Write} (h : .addWorkspace w ∈ ws) :
    { w with createdAt := d.stamp w.createdAt } ∈ ((engine d).commit db ws).workspaces := by
  have hmem : Write.addWorkspace { w with createdAt := d.stamp w.createdAt }
      ∈ ws.map (Write.stored d) := List.mem_map.mpr ⟨_, h, rfl⟩
  exact mem_workspaces_view (d := d) hmem

theorem mem_tenants_commit {t : TenantRecord} {ws : List Write} (h : .addTenant t ∈ ws) :
    { t with createdAt := d.stamp t.createdAt } ∈ ((engine d).commit db ws).tenants := by
  have hmem : Write.addTenant { t with createdAt := d.stamp t.createdAt }
      ∈ ws.map (Write.stored d) := List.mem_map.mpr ⟨_, h, rfl⟩
  exact mem_tenants_view (d := d) hmem

theorem mem_tenants_foldl {t : TenantRecord} {ws : List Write}
    (h : t ∈ (ws.foldl Db.write db).tenants) : t ∈ db.tenants ∨ .addTenant t ∈ ws := by
  induction ws generalizing db with
  | nil => exact .inl h
  | cons w ws ih =>
    rcases ih h with h | h
    · cases w with
      | addTenant r =>
        rcases List.mem_append.mp h with h | h
        · exact .inl h
        · rw [List.mem_singleton] at h
          exact .inr (by simp [h])
      | addRow r =>
        rw [write_addRow, tenants_addRow] at h
        exact .inl h
      | _ => exact .inl h
    · exact .inr (List.mem_cons_of_mem _ h)

theorem mem_workspaces_foldl {w : WorkspaceRecord} {ws : List Write}
    (h : w ∈ (ws.foldl Db.write db).workspaces) : w ∈ db.workspaces ∨ .addWorkspace w ∈ ws := by
  induction ws generalizing db with
  | nil => exact .inl h
  | cons x ws ih =>
    rcases ih h with h | h
    · cases x with
      | addWorkspace r =>
        rcases List.mem_append.mp h with h | h
        · exact .inl h
        · rw [List.mem_singleton] at h
          exact .inr (by simp [h])
      | addRow r =>
        rw [write_addRow, workspaces_addRow] at h
        exact .inl h
      | _ => exact .inl h
    · exact .inr (List.mem_cons_of_mem _ h)

/-- A tenant after a commit was there, or is one of its rows. -/
theorem tenants_commit_cases {t : TenantRecord} {ws : List Write}
    (h : t ∈ ((engine d).commit db ws).tenants) : t ∈ db.tenants ∨
      ∃ t', .addTenant t' ∈ ws ∧ t = { t' with createdAt := d.stamp t'.createdAt } := by
  rcases mem_tenants_foldl h with h | h
  · exact .inl h
  · obtain ⟨x, hx, heq⟩ := List.mem_map.mp h
    cases x with
    | addTenant t' =>
      cases heq
      exact .inr ⟨t', hx, rfl⟩
    | _ => cases heq

theorem workspaces_commit_cases {w : WorkspaceRecord} {ws : List Write}
    (h : w ∈ ((engine d).commit db ws).workspaces) : w ∈ db.workspaces ∨
      ∃ w', .addWorkspace w' ∈ ws ∧ w = { w' with createdAt := d.stamp w'.createdAt } := by
  rcases mem_workspaces_foldl h with h | h
  · exact .inl h
  · obtain ⟨x, hx, heq⟩ := List.mem_map.mp h
    cases x with
    | addWorkspace w' =>
      cases heq
      exact .inr ⟨w', hx, rfl⟩
    | _ => cases heq

/-- The tenant part of an attempt changes no other table. -/
theorem view_tenantPart {pre : List Write} (hpre : TenantPart sup tenantSpec pre) :
    ((engine d).view db pre).workspaces = db.workspaces ∧
      ((engine d).view db pre).heads = db.heads ∧
      ((engine d).view db pre).receipts = db.receipts := by
  rcases hpre with rfl | rfl
  · exact ⟨rfl, rfl, rfl⟩
  · exact ⟨rfl, rfl, rfl⟩

/-- An attempt raced with others: its workspace is there, its receipt id is
taken, or the tenant came only after the attempt began at `start`. -/
def Raced (start db : Db) (id : PyStr) (tenantSpec : TenantSpec) (workspaceSpec : WorkspaceSpec) :
    Prop :=
  HasWorkspace db ⟨tenantSpec.id, workspaceSpec.id⟩ ∨ IdTaken db id ∨
    (HasTenant db tenantSpec ∧ ¬ HasTenant start tenantSpec)

/-- A failure that neither an attempt nor `provision_scope` handles. -/
def Unhandled (e : Exn) : Prop := e.isIntegrityError = false ∧ e.isProvisioningConflict = false

theorem unhandled_of_localError {e : Exn} (h : LocalError e) : Unhandled e := by
  unfold LocalError at h
  cases e <;> first | exact ⟨rfl, rfl⟩ | cases h

/-- How an attempt fails. -/
def AttemptFails (start : Db) (id : PyStr) (tenantSpec : TenantSpec)
    (workspaceSpec : WorkspaceSpec) (e : Exn) (db : Db) : Prop :=
  Unhandled e ∨ (e = .integrityError ∧ Raced start db id tenantSpec workspaceSpec)

/-- Whatever others commit from `start` on, the stored rows admit the request. -/
def Admitted (rt : Runtime) (d : Dialect) (G : Db → List Write → Prop) (start : Db)
    (tenantSpec : TenantSpec) (workspaceSpec : WorkspaceSpec) : Prop :=
  ∀ db, Env (engine d) index G [] start db → AdmitsScope rt d db tenantSpec workspaceSpec

/-- A failure of a call that began at `start`, and its reason where the stored
rows admit the request. -/
def FailsFrom (rt : Runtime) (d : Dialect) (G : Db → List Write → Prop) (start : Db)
    (tenantSpec : TenantSpec) (workspaceSpec : WorkspaceSpec) (Why : Exn → Db → Prop) (e : Exn)
    (db : Db) : Prop :=
  Env (engine d) index G [] start db ∧ (Admitted rt d G start tenantSpec workspaceSpec → Why e db)

/-! ## §3. One attempt. -/

/-- The tenant that an attempt works with: a stored one, or its own. -/
structure TenantTaken (sup : Supply) (tenantSpec : TenantSpec) (a : TenantRecord × Bool) (db : Db)
    (pending : List Write) : Prop where
  names : tenantSpec.Names a.1
  rows : (a.2 = false ∧ pending = [] ∧ a.1 ∈ db.tenants) ∨
    (a.2 = true ∧ a.1 = tenantRow tenantSpec (sup.now 0) ∧ pending = [.addTenant a.1])

theorem TenantTaken.part {a : TenantRecord × Bool} {pending : List Write}
    (h : TenantTaken sup tenantSpec a db pending) : TenantPart sup tenantSpec pending := by
  rcases h.rows with ⟨_, hp, _⟩ | ⟨_, ha, hp⟩
  · exact .inl hp
  · exact .inr (by rw [hp, ha])

theorem TenantTaken.grows {a : TenantRecord × Bool} {pending : List Write}
    (h : TenantTaken sup tenantSpec a db pending) (hg : Grows db db') :
    TenantTaken sup tenantSpec a db' pending := by
  refine ⟨h.names, ?_⟩
  rcases h.rows with ⟨hc, hp, hmem⟩ | hnew
  · exact .inl ⟨hc, hp, hg.tenants.subset hmem⟩
  · exact .inr hnew

/-- Its foreign key holds for the workspace. -/
theorem TenantTaken.inView {a : TenantRecord × Bool} {pending more : List Write}
    (h : TenantTaken sup tenantSpec a db pending) :
    a.1 ∈ ((engine d).view db (pending ++ more)).tenants := by
  rw [Engine.view_append]
  refine (view_grows d _ more).tenants.subset ?_
  rcases h.rows with ⟨_, rfl, hmem⟩ | ⟨_, _, rfl⟩
  · exact hmem
  · show a.1 ∈ (db.write (.addTenant a.1)).tenants
    simp [Db.write]

/-- Others commit between two statements of a call that began at `start`. -/
theorem env_from {db₁ db₂ : Db} (h : Env (engine d) index G [] start db₁)
    (h' : Env (engine d) index G held db₁ db₂) : Env (engine d) index G [] start db₂ :=
  h.trans _ _ (h'.mono _ _ (by simp))

theorem failsFrom_fault {id : PyStr} (hF : ∀ e, F e → Unhandled e)
    (hstart : Env (engine d) index G [] start db) :
    ∀ e, F e → ∀ db', Env (engine d) index G held db db' →
      FailsFrom rt d G start tenantSpec workspaceSpec
        (AttemptFails start id tenantSpec workspaceSpec) e db' :=
  fun e he _ henv => ⟨env_from hstart henv, fun _ => .inl (hF e he)⟩

theorem provisionTenant_contract (rt : Runtime) (workspaceSpec : WorkspaceSpec)
    (hF : ∀ e, F e → Unhandled e)
    (hstart : Env (engine d) index G [] start db) :
    (provisionTenant sup tenantSpec).Sat (engine d) index F G
      (fun a db pending _ => Env (engine d) index G [] start db ∧
        TenantTaken sup tenantSpec a db pending)
      (FailsFrom rt d G start tenantSpec workspaceSpec
        (AttemptFails start (sup.uuid 0) tenantSpec workspaceSpec)) db [] [] := by
  unfold provisionTenant
  refine Body.sat_bind (Body.sat_selectForUpdate ?_ (failsFrom_fault hF hstart))
  intro db₁ henv₁
  have hstart₁ := env_from hstart henv₁
  rw [Engine.view_nil]
  cases hfind : findTenant db₁ tenantSpec.id with
  | none =>
    refine Body.sat_bind (Body.sat_flush_refused (by simp [Write.guard]) ?_ ?_
      (failsFrom_fault hF hstart₁))
    · intro db₂ henv₂
      exact ⟨env_from hstart₁ henv₂, ⟨rfl, rfl, rfl⟩, .inr ⟨rfl, rfl, rfl⟩⟩
    · -- the id or the slug is used by now, so the tenant is there
      intro db₂ mid w post hws henv₂ hr
      refine ⟨env_from hstart₁ henv₂, fun hadm => ?_⟩
      obtain ⟨rfl, rfl, _⟩ : mid = [] ∧ w = .addTenant (tenantRow tenantSpec (sup.now 0)) ∧
          post = [] := by
        cases mid with
        | nil => simpa [eq_comm] using hws
        | cons x xs => simp at hws
      have ha := hadm db₂ (env_from hstart₁ henv₂)
      refine .inr ⟨rfl, .inr (.inr ⟨?_, ?_⟩)⟩
      · rcases rejects_cases hr with ⟨k, hk, hu⟩ | hfk
        · exact ha.hasTenant_of_key hk hu
        · cases hfk
      · rintro ⟨t, ht, hid⟩
        exact findTenant_none hfind t ((env_grows hstart₁).tenants.subset ht) hid
  | some tenant =>
    obtain ⟨hmem, hid⟩ := findTenant_some hfind
    show Body.Sat _ _ _ _ _ _ (if _ then _ else _) _ _ _
    split
    · next hne =>
      refine ⟨hstart₁, fun hadm => ?_⟩
      have hnames := (hadm db₁ hstart₁).agrees.tenant tenant hmem (.inl hid)
      rcases hne with hne | hne
      · exact absurd hnames.2.1 hne
      · exact absurd hnames.2.2 hne
    · next heq =>
      simp only [not_or, not_not] at heq
      exact ⟨hstart₁, ⟨hid, heq⟩, .inl ⟨rfl, rfl, hmem⟩⟩

/-- The statements before a head of a new workspace do not name it. -/
theorem initialHeads_split {scope : Scope} {clock : StreamKind → Instant}
    {mid post : List Write} {w : Write}
    (h : (initialHeads scope clock).map Write.addHead = mid ++ w :: post) :
    ∃ k : StreamKind, w.keys = [.head scope.tenantId.text scope.workspaceId.text k.value] ∧
      ∀ x ∈ mid, ∀ y ∈ x.keys, y ∉ w.keys := by
  have hap : ((initialHeads scope clock).map Write.addHead).Pairwise
      (fun a b => ∀ y ∈ a.keys, y ∉ b.keys) := by
    unfold initialHeads streamKinds
    simp [Write.keys, StreamHeadRecord.keys, StreamKind.value]
  have hw : w ∈ (initialHeads scope clock).map Write.addHead := by
    rw [h]
    simp
  obtain ⟨head, hhead, rfl⟩ := List.mem_map.mp hw
  obtain ⟨k, _, rfl⟩ := List.mem_map.mp hhead
  refine ⟨k, rfl, ?_⟩
  rw [h, List.pairwise_append] at hap
  intro x hx
  exact hap.2.2 x hx _ List.mem_cons_self

/-- The statements of a new workspace, up to its heads. -/
def workspaceWrites (sup : Supply) (tenantSpec : TenantSpec) (workspaceSpec : WorkspaceSpec) :
    List Write :=
  .addWorkspace (workspaceRow tenantSpec.id workspaceSpec (sup.now 1)) ::
    (initialHeads ⟨tenantSpec.id, workspaceSpec.id⟩ (fun k => sup.now (2 + k.ordinal))).map .addHead

/-- **Why the workspace or a head of it is refused**: the workspace is there. -/
theorem refused_workspace {a : TenantRecord × Bool} {pre mid post : List Write} {w : Write}
    (ha : AdmitsScope rt d db tenantSpec workspaceSpec)
    (ht : TenantTaken sup tenantSpec a db pre)
    (hws : workspaceWrites sup tenantSpec workspaceSpec = mid ++ w :: post)
    (hr : (engine d).rejects ((engine d).view db (pre ++ mid)) w = true) :
    HasWorkspace db ⟨tenantSpec.id, workspaceSpec.id⟩ := by
  have hpre : ∀ x ∈ pre, ∀ k ∈ x.keys, (∃ id, k = .tenantId id) ∨ ∃ slug, k = .tenantSlug slug := by
    intro x hx k hk
    rcases ht.part with rfl | rfl
    · cases hx
    · rw [List.mem_singleton] at hx
      subst hx
      simp only [Write.keys, TenantRecord.keys, List.mem_cons, List.not_mem_nil, or_false] at hk
      rcases hk with rfl | rfl
      · exact .inl ⟨_, rfl⟩
      · exact .inr ⟨_, rfl⟩
  unfold workspaceWrites at hws
  cases mid with
  | nil =>
    -- the workspace row itself
    obtain ⟨rfl, _⟩ := List.cons.inj hws
    rw [List.append_nil] at hr
    rcases rejects_cases hr with ⟨k, hk, hu⟩ | hfk
    · rcases mem_keys_view hu with hu | ⟨x, hx, hkx⟩
      · exact ha.hasWorkspace_of_key hk hu
      · unfold Write.keys workspaceRow WorkspaceRecord.keys at hk
        rcases hpre x hx k hkx with ⟨_, rfl⟩ | ⟨_, rfl⟩ <;> simp at hk
    · have hmem : a.1 ∈ ((engine d).view db (pre ++ [])).tenants := ht.inView
      rw [List.append_nil] at hmem
      unfold Db.foreignKeys at hfk
      simp only [List.any_eq_false, beq_iff_eq] at hfk
      exact absurd ht.names.1 (hfk a.1 hmem)
  | cons x mid =>
    obtain ⟨rfl, hheads⟩ := List.cons.inj hws
    obtain ⟨k, hkeys, hap⟩ := initialHeads_split hheads
    rcases rejects_cases hr with ⟨y, hy, hu⟩ | hfk
    · have hy' := hy
      rw [hkeys, List.mem_singleton] at hy'
      subst hy'
      rcases mem_keys_view hu with hu | ⟨z, hz, hkz⟩
      · exact ha.hasWorkspace_of_head hu
      · rcases List.mem_append.mp hz with hz | hz
        · rcases hpre z hz _ hkz with ⟨_, h⟩ | ⟨_, h⟩ <;> cases h
        · rcases List.mem_cons.mp hz with rfl | hz
          · simp [Write.keys, WorkspaceRecord.keys] at hkz
          · exact absurd hy (hap z hz _ hkz)
    · have hw : w ∈ (initialHeads ⟨tenantSpec.id, workspaceSpec.id⟩
          (fun k => sup.now (2 + k.ordinal))).map Write.addHead := by
        rw [hheads]
        simp
      obtain ⟨head, hhead, rfl⟩ := List.mem_map.mp hw
      obtain ⟨k', _, rfl⟩ := List.mem_map.mp hhead
      have hmem : workspaceRow tenantSpec.id workspaceSpec (sup.now 1) ∈ ((engine d).view db (pre ++
          .addWorkspace (workspaceRow tenantSpec.id workspaceSpec (sup.now 1)) :: mid)).workspaces :=
        mem_workspaces_view (by simp)
      unfold Db.foreignKeys at hfk
      simp only [List.any_eq_false] at hfk
      exact absurd (by simp [workspaceRow]) (hfk _ hmem)

/-- **Why the receipt of a new workspace is refused**: the workspace is there, or
a receipt has its id. -/
theorem refused_receipt {pre mid post : List Write} {w : Write} {r : ReceiptRecord}
    {head : StreamHeadRecord}
    (ha : AdmitsScope rt d db tenantSpec workspaceSpec) (hpart : TenantPart sup tenantSpec pre)
    (ht : r.tenantId = tenantSpec.id.text) (hw : r.workspaceId = workspaceSpec.id.text)
    (hws : appendWrites [⟨[.receipt r], head⟩] = mid ++ w :: post)
    (hr : (engine d).rejects
      ((engine d).view db (pre ++ workspaceWrites sup tenantSpec workspaceSpec ++ mid)) w = true) :
    HasWorkspace db ⟨tenantSpec.id, workspaceSpec.id⟩ ∨ IdTaken db r.id := by
  change [Write.addRow (.receipt r), .updateHead head] = mid ++ w :: post at hws
  have hmem : workspaceRow tenantSpec.id workspaceSpec (sup.now 1) ∈ ((engine d).view db
      (pre ++ workspaceWrites sup tenantSpec workspaceSpec ++ mid)).workspaces :=
    mem_workspaces_view (by simp [workspaceWrites])
  have hown : ∀ x ∈ pre ++ workspaceWrites sup tenantSpec workspaceSpec, ∀ k ∈ x.keys,
      k ∉ (Row.receipt r).keys := by
    intro x hx k hk hk'
    have hkind := mem_row_keys hk'
    rcases List.mem_append.mp hx with hx | hx
    · rcases hpart with rfl | rfl
      · cases hx
      · rw [List.mem_singleton] at hx
        subst hx
        rcases hkind with rfl | ⟨_, rfl⟩ | ⟨_, rfl⟩ | ⟨_, rfl⟩ | ⟨_, _, _, rfl⟩ <;>
          simp [Write.keys, TenantRecord.keys] at hk
    · rcases List.mem_cons.mp hx with rfl | hx
      · rcases hkind with rfl | ⟨_, rfl⟩ | ⟨_, rfl⟩ | ⟨_, rfl⟩ | ⟨_, _, _, rfl⟩ <;>
          simp [Write.keys, WorkspaceRecord.keys] at hk
      · obtain ⟨h, _, rfl⟩ := List.mem_map.mp hx
        rcases hkind with rfl | ⟨_, rfl⟩ | ⟨_, rfl⟩ | ⟨_, rfl⟩ | ⟨_, _, _, rfl⟩ <;>
          simp [Write.keys, StreamHeadRecord.keys] at hk
  cases mid with
  | nil =>
    obtain ⟨rfl, _⟩ := List.cons.inj hws
    rw [List.append_nil] at hr hmem
    rcases rejects_cases hr with ⟨k, hk, hu⟩ | hfk
    · rcases mem_keys_view hu with hu | ⟨x, hx, hkx⟩
      · exact ha.of_receipt_key ht hw hk hu
      · exact absurd hk (hown x hx k hkx)
    · unfold Db.foreignKeys at hfk
      simp only [List.any_eq_false] at hfk
      exact absurd (by simp [workspaceRow, ht, hw]) (hfk _ hmem)
  | cons x mid =>
    -- an UPDATE is never refused
    obtain ⟨_, hws⟩ := List.cons.inj hws
    cases mid with
    | nil =>
      obtain ⟨rfl, _⟩ := List.cons.inj hws
      rcases rejects_cases hr with ⟨k, hk, _⟩ | hfk
      · cases hk
      · cases hfk
    | cons y mid => simp at hws

/-- What the workspace half of an attempt ends with: a stored workspace, or all
the rows of a new one. -/
def WorkspaceTaken (rt : Runtime) (d : Dialect) (G : Db → List Write → Prop) (sup : Supply)
    (tenantSpec : TenantSpec) (workspaceSpec : WorkspaceSpec) (pre : List Write)
    (a : Bool × Option PyStr) (db : Db) (pending : List Write) (held : List RowLock) : Prop :=
  (a.1 = false ∧ pending = pre ∧ ∃ w ∈ db.workspaces, workspaceSpec.Names tenantSpec.id w) ∨
  (a.1 = true ∧ ∀ db', Env (engine d) index G held db db' → index.Fresh db' pending →
    ∃ receipt, provisioningRow rt (sup.uuid 0) ⟨tenantSpec.id, workspaceSpec.id⟩ tenantSpec
        workspaceSpec 1 none (sup.now 7).stamp = .ok receipt ∧
      a.2 = some receipt.recordHash ∧
      pending = pre ++ provisionWrites sup tenantSpec workspaceSpec receipt
        (newHead sup tenantSpec workspaceSpec))

theorem provisioningRow_raises (id : PyStr) (scope : Scope) (n : Int) (p : Option PyStr)
    (at_ : Stamp) :
    Raises LocalError (provisioningRow rt id scope tenantSpec workspaceSpec n p at_) :=
  (sha256Json_raises _).bind (fun _ => (seal_raises _ _ _ _ _ _ _ _).bind (fun _ => raises_ok _))

theorem provisionWorkspace_contract (hF : ∀ e, F e → Unhandled e) {a : TenantRecord × Bool}
    {pre : List Write} (hstart : Env (engine d) index G [] start db)
    (ht : TenantTaken sup tenantSpec a db pre) :
    (provisionWorkspace rt d sup a.1 tenantSpec workspaceSpec).Sat (engine d) index F G
      (fun b db pending held => Env (engine d) index G [] start db ∧
        TenantTaken sup tenantSpec a db pre ∧
        WorkspaceTaken rt d G sup tenantSpec workspaceSpec pre b db pending held)
      (FailsFrom rt d G start tenantSpec workspaceSpec
        (AttemptFails start (sup.uuid 0) tenantSpec workspaceSpec)) db pre held := by
  unfold provisionWorkspace
  refine Body.sat_bind (Body.sat_selectForUpdate ?_ (failsFrom_fault hF hstart))
  intro db₁ henv₁
  have hstart₁ := env_from hstart henv₁
  have ht₁ := ht.grows (env_grows henv₁)
  have hview : ∀ v : Db, findWorkspace ((engine d).view v pre) workspaceSpec.id
      = findWorkspace v workspaceSpec.id := by
    intro v
    unfold findWorkspace
    rw [(view_tenantPart ht.part).1]
  rw [hview]
  cases hfind : findWorkspace db₁ workspaceSpec.id with
  | none =>
    refine Body.sat_bind (Body.sat_flush_refused (by simp [Write.guard]) ?_ ?_
      (failsFrom_fault hF hstart₁))
    rotate_left
    · intro db₂ mid w post hws henv₂ hr
      refine ⟨env_from hstart₁ henv₂, fun hadm => ?_⟩
      obtain ⟨rfl, hw, _⟩ : mid = [] ∧
          .addWorkspace (workspaceRow tenantSpec.id workspaceSpec (sup.now 1)) = w ∧ [] = post := by
        cases mid with
        | nil => exact ⟨rfl, List.cons.inj hws⟩
        | cons x xs => simp at hws
      subst hw
      exact .inr ⟨rfl, .inl (refused_workspace (hadm db₂ (env_from hstart₁ henv₂))
        (ht₁.grows (env_grows henv₂)) rfl hr)⟩
    intro db₂ henv₂
    have hstart₂ := env_from hstart₁ henv₂
    have ht₂ := ht₁.grows (env_grows henv₂)
    refine Body.sat_bind (Body.sat_flush_refused ?_ ?_ ?_ (failsFrom_fault hF hstart₂))
    · intro w hw l hl
      rw [index_guard, guard_addHead w hw] at hl
      cases hl
    rotate_left
    · intro db₃ mid w post hws henv₃ hr
      rw [List.append_assoc] at hr
      refine ⟨env_from hstart₂ henv₃, fun hadm => ?_⟩
      exact .inr ⟨rfl, .inl (refused_workspace (hadm db₃ (env_from hstart₂ henv₃))
        (ht₂.grows (env_grows henv₃)) (by unfold workspaceWrites; rw [hws]; rfl) hr)⟩
    intro db₃ henv₃
    have hstart₃ := env_from hstart₂ henv₃
    have ht₃ := ht₂.grows (env_grows henv₃)
    have hassoc : pre ++ [Write.addWorkspace (workspaceRow tenantSpec.id workspaceSpec (sup.now 1))]
        ++ (initialHeads ⟨tenantSpec.id, workspaceSpec.id⟩
          (fun k => sup.now (2 + k.ordinal))).map .addHead
        = pre ++ workspaceWrites sup tenantSpec workspaceSpec := by
      rw [List.append_assoc]
      rfl
    rw [hassoc]
    refine Body.sat_bind ?_
    unfold appendProvisioningReceipt
    refine Body.sat_bind (sat_lockedHead_env ?_
      (fun _ henv => ⟨env_from hstart₃ henv, fun _ => .inl ⟨rfl, rfl⟩⟩)
      (failsFrom_fault hF hstart₃))
    intro db₄ head henv₄ hhead
    have hstart₄ := env_from hstart₃ henv₄
    have ht₄ := ht₃.grows (env_grows henv₄)
    refine Body.sat_bind (Body.sat_ofExcept ?_
      (fun e he => ⟨hstart₄, fun _ =>
        .inl (unhandled_of_localError (provisioningRow_raises _ _ _ _ _ e he))⟩))
    intro receipt hrow
    have hsealed := provisioningRow_sealed hrow
    have hid : receipt.id = sup.uuid 0 := by
      obtain ⟨_, m, _, hm, rfl⟩ := provisioningRow_ok hrow
      exact (sealed_of_seal hm).2.2.2.1
    have hext := extends_one (Row.stream_receipt receipt) hhead hsealed
    refine Body.sat_bind (Body.sat_flush_refused ?_ ?_ ?_ (failsFrom_fault hF hstart₄))
    · intro w hw l hl
      have hall : ∀ p ∈ [(StreamKind.receipts, (⟨[.receipt receipt], advanceHead head
          receipt.sequence receipt.recordHash (sup.now 7).stamp⟩ : StreamAppend))],
          ∃ head, Extends rt ⟨tenantSpec.id, workspaceSpec.id⟩ p.1 head p.2 := by
        simpa using ⟨head, hext⟩
      obtain ⟨p, hp, rfl⟩ := guard_of_extends hall hw hl
      rw [List.mem_singleton.mp hp]
      exact List.mem_cons_self
    rotate_left
    · intro db₅ mid w post hws henv₅ hr
      refine ⟨env_from hstart₄ henv₅, fun hadm => ?_⟩
      have hrefused := refused_receipt (hadm db₅ (env_from hstart₄ henv₅)) ht.part
        hsealed.sealed.tenant hsealed.sealed.workspace hws hr
      rw [hid] at hrefused
      exact .inr ⟨rfl, hrefused.imp id .inl⟩
    intro db₅ henv₅
    refine ⟨env_from hstart₄ henv₅, ht₄.grows (env_grows henv₅), .inr ⟨rfl, ?_⟩⟩
    intro db₆ henv₆ hfresh
    have hrows : pre ++ workspaceWrites sup tenantSpec workspaceSpec ++ appendWrites
        [⟨[.receipt receipt], advanceHead head receipt.sequence receipt.recordHash
          (sup.now 7).stamp⟩]
        = pre ++ provisionWrites sup tenantSpec workspaceSpec receipt head := by
      rw [List.append_assoc]
      rfl
    have hhead' : head = newHead sup tenantSpec workspaceSpec := by
      refine head_of_new_workspace receipt head ht.part (henv₅.trans _ _ henv₆) ?_ hhead
      rw [← hrows]
      exact hfresh
    subst hhead'
    exact ⟨receipt, hrow, rfl, hrows⟩
  | some workspace =>
    obtain ⟨hmem, hid⟩ := findWorkspace_some hfind
    refine Body.sat_bind (Body.sat_select ?_ (failsFrom_fault hF hstart₁))
    intro db₂ henv₂
    have hstart₂ := env_from hstart₁ henv₂
    have ht₂ := ht₁.grows (env_grows henv₂)
    have hmem₂ := (env_grows henv₂).workspaces.subset hmem
    have hkinds : headKinds ((engine d).view db₂ pre) tenantSpec.id workspaceSpec.id
        = headKinds db₂ tenantSpec.id workspaceSpec.id := by
      unfold headKinds
      rw [(view_tenantPart ht.part).2.1]
    rw [hkinds]
    refine Body.sat_bind (Body.sat_ofExcept ?_ ?_)
    rotate_left
    · -- the rows that were read are those of the request
      intro e he
      refine ⟨hstart₂, fun hadm => ?_⟩
      have ha := hadm db₂ hstart₂
      rw [assertProvisioningIdentity_ok ht.names (ha.agrees.workspace workspace hmem₂ (.inl hid))
        (ha.inv.kindsComplete (ha.hasWorkspace_of_mem hmem₂ (.inl hid)))] at he
      cases he
    intro _ hassert
    obtain ⟨_, _, _, hw, _, hnames⟩ := assertProvisioningIdentity_names hassert
    cases hw
    refine Body.sat_bind (Body.sat_select ?_ (failsFrom_fault hF hstart₂))
    intro db₃ henv₃
    have hstart₃ := env_from hstart₂ henv₃
    have hmem₃ := (env_grows henv₃).workspaces.subset hmem₂
    have hreceipts : provisioningReceipts ((engine d).view db₃ pre)
        ⟨tenantSpec.id, workspaceSpec.id⟩
        = provisioningReceipts db₃ ⟨tenantSpec.id, workspaceSpec.id⟩ := by
      rw [provisioningReceipts_eq, (view_tenantPart ht.part).2.2, provisioningReceipts_eq]
    rw [hreceipts]
    refine Body.sat_bind (Body.sat_ofExcept ?_ ?_)
    rotate_left
    · intro e he
      refine ⟨hstart₃, fun hadm => ?_⟩
      have ha := hadm db₃ hstart₃
      obtain ⟨hash, hcloses⟩ := ha.closes (ha.hasWorkspace_of_mem hmem₃ (.inl hid))
      unfold ReceiptCloses at hcloses
      rw [hcloses] at he
      cases he
    intro hash _
    exact ⟨hstart₃, ht₂.grows (env_grows henv₃), .inl ⟨rfl, rfl, workspace, hmem₃, hid, hnames⟩⟩

/-- **What an attempt commits**, and what it then returns: a workspace with its
receipt, a tenant and a workspace, or a tenant whose workspace was there. -/
inductive ScopeCommit (rt : Runtime) (sup : Supply) (tenantSpec : TenantSpec)
    (workspaceSpec : WorkspaceSpec) : List Write → ScopeProvisioning → Prop
  | workspace {receipt} :
      provisioningRow rt (sup.uuid 0) ⟨tenantSpec.id, workspaceSpec.id⟩ tenantSpec workspaceSpec 1
        none (sup.now 7).stamp = .ok receipt →
      ScopeCommit rt sup tenantSpec workspaceSpec
        (provisionWrites sup tenantSpec workspaceSpec receipt
          (newHead sup tenantSpec workspaceSpec))
        ⟨⟨tenantSpec.id, workspaceSpec.id⟩, py "CREATED", false, true, some receipt.recordHash⟩
  | both {receipt} :
      provisioningRow rt (sup.uuid 0) ⟨tenantSpec.id, workspaceSpec.id⟩ tenantSpec workspaceSpec 1
        none (sup.now 7).stamp = .ok receipt →
      ScopeCommit rt sup tenantSpec workspaceSpec
        (.addTenant (tenantRow tenantSpec (sup.now 0)) ::
          provisionWrites sup tenantSpec workspaceSpec receipt
            (newHead sup tenantSpec workspaceSpec))
        ⟨⟨tenantSpec.id, workspaceSpec.id⟩, py "CREATED", true, true, some receipt.recordHash⟩
  | tenant {hash} :
      ScopeCommit rt sup tenantSpec workspaceSpec [.addTenant (tenantRow tenantSpec (sup.now 0))]
        ⟨⟨tenantSpec.id, workspaceSpec.id⟩, py "CREATED", true, false, hash⟩

theorem ScopeCommit.provisionCommit {ws : List Write} {r : ScopeProvisioning}
    (h : ScopeCommit rt sup tenantSpec workspaceSpec ws r) :
    ProvisionCommit rt sup tenantSpec workspaceSpec db ws r := by
  cases h with
  | workspace hrow => exact .workspace hrow
  | both hrow => exact .both hrow
  | tenant => exact .tenant

/-- A commit that leaves the scope of the request stored; without a workspace of
its own, one was there before. -/
structure ScopeSettled (rt : Runtime) (d : Dialect) (sup : Supply) (tenantSpec : TenantSpec)
    (workspaceSpec : WorkspaceSpec) (db : Db) (ws : List Write) (r : ScopeProvisioning) : Prop where
  commit : ScopeCommit rt sup tenantSpec workspaceSpec ws r
  stored : StoredScope ((engine d).commit db ws) tenantSpec workspaceSpec
  before : r.workspaceCreated = false → ∃ w ∈ db.workspaces, workspaceSpec.Names tenantSpec.id w

/-- The answer to a request whose scope was there. -/
def IsExisting (tenantSpec : TenantSpec) (workspaceSpec : WorkspaceSpec) (r : ScopeProvisioning)
    (db : Db) : Prop :=
  (∃ hash, r = ⟨⟨tenantSpec.id, workspaceSpec.id⟩, py "EXISTING", false, false, hash⟩) ∧
    StoredScope db tenantSpec workspaceSpec

/-- How a call ends that commits once or raises for a reason: `X` may speak of
the rows it leaves. -/
def Ends (d : Dialect) (G : Db → List Write → Prop)
    (C : Db → List Write → ScopeProvisioning → Prop) (P : ScopeProvisioning → Db → Prop)
    (X : Exn → Db → Prop) : Except Exn ScopeProvisioning → List (Db × List Write) → Db → Prop
  | .ok r, done, db => Outcome (engine d) index G C P (fun _ => False) (.ok r) done db
  | .error e, done, db => done = [] ∧ X e db

theorem Raced.grows {id : PyStr} (h : Raced start db id tenantSpec workspaceSpec)
    (hg : Grows db db') : Raced start db' id tenantSpec workspaceSpec := by
  rcases h with h | h | ⟨h, hno⟩
  · exact .inl (h.grows hg)
  · exact .inr (.inl (h.grows hg))
  · exact .inr (.inr ⟨h.grows hg, hno⟩)

theorem AttemptFails.grows {id : PyStr} {e : Exn}
    (h : AttemptFails start id tenantSpec workspaceSpec e db) (hg : Grows db db') :
    AttemptFails start id tenantSpec workspaceSpec e db' := by
  rcases h with h | ⟨he, h⟩
  · exact .inl h
  · exact .inr ⟨he, h.grows hg⟩

theorem FailsFrom.grows {id : PyStr} {e : Exn}
    (h : FailsFrom rt d G start tenantSpec workspaceSpec
      (AttemptFails start id tenantSpec workspaceSpec) e db)
    (henv : Env (engine d) index G [] db db') :
    FailsFrom rt d G start tenantSpec workspaceSpec
      (AttemptFails start id tenantSpec workspaceSpec) e db' :=
  ⟨env_from h.1 henv, fun hadm => (h.2 hadm).grows (env_grows henv)⟩

/-- **What an attempt has written when it comes to its end** leaves the scope
stored, whenever it is committed. -/
theorem scopeSettled_of_taken {t : TenantRecord} {c : Bool} {b : Bool × Option PyStr}
    {pre pending : List Write} {db₁ : Db} (ht : TenantTaken sup tenantSpec (t, c) db₁ pre)
    (hw : WorkspaceTaken rt d G sup tenantSpec workspaceSpec pre b db₁ pending held)
    (henv : Env (engine d) index G held db₁ db) (hf : index.Fresh db pending) :
    (pending = [] ∧ c = false ∧ b.1 = false ∧ StoredScope db tenantSpec workspaceSpec) ∨
    ScopeSettled rt d sup tenantSpec workspaceSpec db pending
      ⟨⟨tenantSpec.id, workspaceSpec.id⟩, if c || b.1 then py "CREATED" else py "EXISTING", c, b.1,
        b.2⟩ := by
  have hg := env_grows henv
  have hgrows := commit_grows d db pending
  obtain ⟨created, hash⟩ := b
  have hnew : ∀ receipt, StoredScope ((engine d).commit db (pre ++ provisionWrites sup tenantSpec
      workspaceSpec receipt (newHead sup tenantSpec workspaceSpec))) tenantSpec workspaceSpec := by
    intro receipt
    refine ⟨?_, _, mem_workspaces_commit (w := workspaceRow tenantSpec.id workspaceSpec (sup.now 1))
      (by simp [provisionWrites]), rfl, rfl, rfl, rfl⟩
    rcases ht.rows with ⟨_, _, hmem⟩ | ⟨_, ht', hpre⟩
    · exact ⟨t, (commit_grows d _ _).tenants.subset (hg.tenants.subset hmem), ht.names⟩
    · simp only at ht'
      exact ⟨_, mem_tenants_commit (t := t) (by simp [hpre]), ht.names⟩
  rcases hw with ⟨hcreated, hp, w, hw, hnames⟩ | ⟨hcreated, hrows⟩
  · simp only at hcreated
    subst hcreated
    have hw' := hg.workspaces.subset hw
    rcases ht.rows with ⟨hc, hpre, hmem⟩ | ⟨hc, ht', hpre⟩
    · simp only at hc hmem
      subst hc
      exact .inl ⟨hp.trans hpre, rfl, rfl, ⟨t, hg.tenants.subset hmem, ht.names⟩, w, hw', hnames⟩
    · simp only at hc ht' hpre
      subst hc ht'
      rw [hpre] at hp
      subst hp
      refine .inr ⟨.tenant, ⟨⟨_, mem_tenants_commit List.mem_cons_self, ht.names⟩, w,
        hgrows.workspaces.subset hw', hnames⟩, fun _ => ⟨w, hw', hnames⟩⟩
  · simp only at hcreated
    subst hcreated
    obtain ⟨receipt, hrow, hhash, hp⟩ := hrows db henv hf
    simp only at hhash
    subst hhash
    have hstored := hnew receipt
    rw [← hp] at hstored
    rcases ht.rows with ⟨hc, hpre, _⟩ | ⟨hc, ht', hpre⟩
    · simp only at hc
      subst hc hpre
      rw [List.nil_append] at hp
      subst hp
      exact .inr ⟨.workspace hrow, hstored, fun h => by cases h⟩
    · simp only at hc ht' hpre
      subst hc ht' hpre
      subst hp
      exact .inr ⟨.both hrow, hstored, fun h => by cases h⟩

theorem provisionScopeOnce_contract (hF : ∀ e, F e → Unhandled e)
    (hown : workspaceSpec.tenantId = tenantSpec.id)
    (hG : ∀ db ws r, ScopeSettled rt d sup tenantSpec workspaceSpec db ws r →
      index.Fresh db ws → G db ws) (hnil : ∀ db, G db [])
    (hstart : Env (engine d) index G [] start db) :
    Sat (engine d) index F G
      (Ends d G (ScopeSettled rt d sup tenantSpec workspaceSpec)
        (IsExisting tenantSpec workspaceSpec)
        (FailsFrom rt d G start tenantSpec workspaceSpec
          (AttemptFails start (sup.uuid 0) tenantSpec workspaceSpec)))
      (provisionScopeOnce rt d sup tenantSpec workspaceSpec) db [] [] [] := by
  unfold provisionScopeOnce
  rw [if_neg (by simp [hown])]
  refine sat_transaction (Body.sat_bind ((provisionTenant_contract rt workspaceSpec hF hstart).imp ?_ ?_))
  · rintro ⟨t, c⟩ db₁ pre held₁ ⟨hstart₁, ht⟩
    refine Body.sat_bind ((provisionWorkspace_contract hF hstart₁ ht).imp ?_ ?_)
    · rintro b db₂ pending held₂ ⟨hstart₂, ht₂, hw⟩ db₃ henv₃ hfresh
      have hstart₃ := env_from hstart₂ henv₃
      refine ⟨?_, fun e he db₄ henv₄ => ⟨rfl, failsFrom_fault hF hstart₃ e he db₄ henv₄⟩⟩
      rcases scopeSettled_of_taken ht₂ hw henv₃ hfresh with ⟨rfl, rfl, hb, hstored⟩ | hsettled
      · refine ⟨hnil db₃, fun db₄ henv₄ => ?_⟩
        obtain ⟨created, hash⟩ := b
        simp only at hb
        subst hb
        have hgrows := (env_grows henv₄)
        exact .replayed ⟨⟨hash, rfl⟩, hstored.grows hgrows⟩ (by simp)
      · exact ⟨hG _ _ _ hsettled hfresh, fun db₄ henv₄ => .committed hsettled hfresh henv₄⟩
    · intro e db₂ hfails db₃ henv₃
      exact ⟨rfl, hfails.grows henv₃⟩
  · intro e db₁ hfails db₂ henv₂
    exact ⟨rfl, hfails.grows henv₂⟩

/-! ## §4. After an IntegrityError. -/

/-- The tenant came after `start`, and for a while without the workspace. -/
def TenantFirst (d : Dialect) (G : Db → List Write → Prop) (start : Db) (tenantSpec : TenantSpec)
    (workspaceSpec : WorkspaceSpec) : Prop :=
  ¬ HasTenant start tenantSpec ∧ ∃ db, Env (engine d) index G [] start db ∧
    HasTenant db tenantSpec ∧ ¬ HasWorkspace db ⟨tenantSpec.id, workspaceSpec.id⟩

/-- Why `_read_provisioned_scope` finds a conflict. -/
def ReadFails (d : Dialect) (G : Db → List Write → Prop) (start : Db) (id : PyStr)
    (tenantSpec : TenantSpec) (workspaceSpec : WorkspaceSpec) (e : Exn) (db : Db) : Prop :=
  Unhandled e ∨ (e.isProvisioningConflict = true ∧ (IdTaken db id ∨
    (TenantFirst d G start tenantSpec workspaceSpec ∧ HasTenant db tenantSpec)))

theorem ReadFails.grows {id : PyStr} {e : Exn}
    (h : ReadFails d G start id tenantSpec workspaceSpec e db) (hg : Grows db db') :
    ReadFails d G start id tenantSpec workspaceSpec e db' := by
  rcases h with h | ⟨he, h | ⟨hfirst, h⟩⟩
  · exact .inl h
  · exact .inr ⟨he, .inl (h.grows hg)⟩
  · exact .inr ⟨he, .inr ⟨hfirst, h.grows hg⟩⟩

section Handling

variable {C : Db → List Write → ScopeProvisioning → Prop} {X X' : Exn → Db → Prop}

theorem isExisting_env {r : ScopeProvisioning} (h : IsExisting tenantSpec workspaceSpec r db)
    (henv : Env (engine d) index G held db db') : IsExisting tenantSpec workspaceSpec r db' :=
  ⟨h.1, h.2.grows (env_grows henv)⟩

/-- An answer is passed on. -/
theorem sat_ret_ends {C' : Db → List Write → ScopeProvisioning → Prop} {r : ScopeProvisioning}
    {done : List (Db × List Write)} (hC : ∀ db ws r, C db ws r → C' db ws r)
    (h : Ends d G C (IsExisting tenantSpec workspaceSpec) X (.ok r) done db) :
    Sat (engine d) index F G (Ends d G C' (IsExisting tenantSpec workspaceSpec) X') (.ret r) db
      [] [] done := by
  refine ⟨rfl, rfl, fun db' henv => ?_⟩
  change Outcome _ _ _ _ _ _ _ _ _ at h
  exact (h.imp hC (fun _ _ hp => hp)).env henv (fun _ _ _ => isExisting_env)

theorem sat_raise_ends {e : Exn} (h : ∀ db', Env (engine d) index G [] db db' → X e db') :
    Sat (engine d) index F G (Ends d G C (IsExisting tenantSpec workspaceSpec) X) (.raise e) db
      [] [] [] :=
  ⟨rfl, rfl, fun db' henv => ⟨rfl, h db' henv⟩⟩

/-- **`_read_provisioned_scope` after a race.** -/
theorem readProvisionedScope_contract (id : PyStr) (hF : ∀ e, F e → Unhandled e)
    (hstart : Env (engine d) index G [] start db)
    (hraced : Admitted rt d G start tenantSpec workspaceSpec →
      Raced start db id tenantSpec workspaceSpec) :
    Sat (engine d) index F G
      (Ends d G C (IsExisting tenantSpec workspaceSpec)
        (FailsFrom rt d G start tenantSpec workspaceSpec
          (ReadFails d G start id tenantSpec workspaceSpec)))
      (readProvisionedScope rt d tenantSpec workspaceSpec) db [] [] [] := by
  have hfault : ∀ {held : List RowLock} {db₁ : Db}, Env (engine d) index G [] start db₁ → ∀ e, F e →
      ∀ db₂, Env (engine d) index G held db₁ db₂ →
        ∀ db₃, Env (engine d) index G [] db₂ db₃ →
          Ends d G C (IsExisting tenantSpec workspaceSpec)
            (FailsFrom rt d G start tenantSpec workspaceSpec
              (ReadFails d G start id tenantSpec workspaceSpec)) (.error e) [] db₃ := by
    intro held db₁ hstart₁ e he db₂ henv₂ db₃ henv₃
    exact ⟨rfl, env_from (env_from hstart₁ henv₂) henv₃, fun _ => .inl (hF e he)⟩
  unfold readProvisionedScope
  refine sat_readSession (Body.sat_bind (Body.sat_select ?_ (hfault hstart)))
  intro db₁ henv₁
  have hstart₁ := env_from hstart henv₁
  rw [Engine.view_nil]
  refine Body.sat_bind (Body.sat_select ?_ (hfault hstart₁))
  intro db₂ henv₂
  have hstart₂ := env_from hstart₁ henv₂
  rw [Engine.view_nil]
  refine Body.sat_bind (Body.sat_select ?_ (hfault hstart₂))
  intro db₃ henv₃
  have hstart₃ := env_from hstart₂ henv₃
  rw [Engine.view_nil]
  refine Body.sat_bind (Body.sat_ofExcept ?_ ?_)
  · intro _ hassert
    obtain ⟨t, w, ht, hw, hnames, hnames'⟩ := assertProvisioningIdentity_names hassert
    obtain ⟨htmem, htid⟩ := findTenant_some ht
    obtain ⟨hwmem, hwid⟩ := findWorkspace_some hw
    refine Body.sat_bind (Body.sat_select ?_ (hfault hstart₃))
    intro db₄ henv₄
    have hstart₄ := env_from hstart₃ henv₄
    have hstored : StoredScope db₄ tenantSpec workspaceSpec := by
      refine ⟨⟨t, ?_, htid, hnames⟩, w, ?_, hwid, hnames'⟩
      · exact (env_grows ((henv₂.trans _ _ henv₃).trans _ _ henv₄)).tenants.subset htmem
      · exact (env_grows (henv₃.trans _ _ henv₄)).workspaces.subset hwmem
    rw [Engine.view_nil]
    refine Body.sat_bind (Body.sat_ofExcept ?_ ?_)
    · intro hash _ db₅ henv₅
      exact .replayed ⟨⟨hash, rfl⟩, hstored.grows (env_grows henv₅)⟩ (by simp)
    · -- the receipt closes
      intro e he db₅ henv₅
      refine ⟨rfl, env_from hstart₄ henv₅, fun hadm => ?_⟩
      obtain ⟨hash, hcloses⟩ := (hadm db₄ hstart₄).closes hstored.hasWorkspace
      unfold ReceiptCloses at hcloses
      rw [hcloses] at he
      cases he
  · intro e he db₄ henv₄
    refine ⟨rfl, env_from hstart₃ henv₄, fun hadm => ?_⟩
    have ha₁ := hadm db₁ hstart₁
    have ha₂ := hadm db₂ hstart₂
    have hconflict := assertProvisioningIdentity_raises _ _ _ e he
    have hgrows₁ := env_grows henv₁
    have hgrows₄ := env_grows ((henv₂.trans _ _ henv₃).trans _ _ henv₄)
    -- whatever was found passes the check, so the workspace was not there yet
    have hmissing : HasTenant db₁ tenantSpec →
        ¬ HasWorkspace db₂ ⟨tenantSpec.id, workspaceSpec.id⟩ := by
      intro ht hw
      obtain ⟨t, hfind, htnames⟩ := ha₁.agrees.findTenant (ha₁.storedTenant ht)
      obtain ⟨_, hev⟩ := ha₂.evidence hw
      obtain ⟨w, hfind', hwnames⟩ := ha₂.agrees.findWorkspace hev.stored.workspace
      have hkinds := (hadm db₃ hstart₃).inv.kindsComplete (hw.grows (env_grows henv₃))
      rw [hfind, hfind', assertProvisioningIdentity_ok htnames hwnames hkinds] at he
      cases he
    rcases hraced hadm with hw | hid | ⟨ht, hno⟩
    · have hw₁ := hw.grows hgrows₁
      exact absurd (hw₁.grows (env_grows henv₂)) (hmissing (ha₁.hasTenant hw₁))
    · exact .inr ⟨hconflict, .inl ((hid.grows hgrows₁).grows hgrows₄)⟩
    · have ht₁ := ht.grows hgrows₁
      exact .inr ⟨hconflict, .inr ⟨⟨hno, db₂, hstart₂, ht₁.grows (env_grows henv₂), hmissing ht₁⟩,
        ht₁.grows hgrows₄⟩⟩

/-- **One round of the loop**: it answers, or it goes on from a conflict that the
read found, or it raises what nobody handles. -/
theorem provisionAttempt_contract (hF : ∀ e, F e → Unhandled e)
    (hown : workspaceSpec.tenantId = tenantSpec.id)
    (hC : ∀ db ws r, ScopeSettled rt d sup tenantSpec workspaceSpec db ws r → C db ws r)
    (hG : ∀ db ws r, C db ws r → index.Fresh db ws → G db ws) (hnil : ∀ db, G db [])
    {onConflict : Exn → StoreProg ScopeProvisioning}
    (hconflict : ∀ e db', e.isProvisioningConflict = true →
      FailsFrom rt d G db tenantSpec workspaceSpec
        (ReadFails d G db (sup.uuid 0) tenantSpec workspaceSpec) e db' →
      Sat (engine d) index F G (Ends d G C (IsExisting tenantSpec workspaceSpec) X)
        (onConflict e) db' [] [] [])
    (hX : ∀ e db', FailsFrom rt d G db tenantSpec workspaceSpec (fun e _ => Unhandled e) e db' →
      X e db') :
    Sat (engine d) index F G (Ends d G C (IsExisting tenantSpec workspaceSpec) X)
      (provisionAttempt rt d sup tenantSpec workspaceSpec onConflict) db [] [] [] := by
  unfold provisionAttempt
  refine sat_tryCatch ((provisionScopeOnce_contract hF hown
    (fun db ws r h => hG db ws r (hC db ws r h)) hnil .refl).imp ?_)
  rintro (e | r) done db₁ hends
  · obtain ⟨rfl, hstart₁, hwhy⟩ := hends
    show Sat _ _ _ _ _ (if _ then _ else _) _ _ _ _
    split
    · next hint =>
      refine sat_tryCatch ((readProvisionedScope_contract (C := C) (sup.uuid 0) hF hstart₁
        (fun hadm => ?_)).imp ?_)
      · rcases hwhy hadm with ⟨hno, _⟩ | ⟨_, hraced⟩
        · rw [hno] at hint
          cases hint
        · exact hraced
      · rintro (e' | r) done db₂ hends
        · obtain ⟨rfl, hfails⟩ := hends
          show Sat _ _ _ _ _ (if _ then _ else _) _ _ _ _
          split
          · next hcf => exact hconflict e' db₂ hcf hfails
          · next hcf =>
            refine sat_raise_ends (fun db₃ henv₃ => hX e' db₃ ⟨env_from hfails.1 henv₃, ?_⟩)
            intro hadm
            rcases hfails.2 hadm with h | ⟨h, _⟩
            · exact h
            · exact absurd h hcf
        · exact sat_ret_ends (fun _ _ _ h => h) hends
    · next hint =>
      refine sat_raise_ends (fun db₂ henv₂ => hX e db₂ ⟨env_from hstart₁ henv₂, ?_⟩)
      intro hadm
      rcases hwhy hadm with h | ⟨rfl, _⟩
      · exact h
      · exact absurd rfl hint
  · exact sat_ret_ends hC hends

/-- Where it was answered that the workspace is not missing, it is there. -/
def RetryRefused (d : Dialect) (G : Db → List Write → Prop) (start : Db) (id : PyStr)
    (tenantSpec : TenantSpec) (workspaceSpec : WorkspaceSpec) (db : Db) : Prop :=
  IdTaken db id ∨ (TenantFirst d G start tenantSpec workspaceSpec ∧
    HasWorkspace db ⟨tenantSpec.id, workspaceSpec.id⟩)

theorem RetryRefused.grows {id : PyStr} (h : RetryRefused d G start id tenantSpec workspaceSpec db)
    (hg : Grows db db') : RetryRefused d G start id tenantSpec workspaceSpec db' := by
  rcases h with h | ⟨hfirst, h⟩
  · exact .inl (h.grows hg)
  · exact .inr ⟨hfirst, h.grows hg⟩

/-- What `_retryable_missing_workspace` tells after a conflict. -/
def RetryPost (rt : Runtime) (d : Dialect) (G : Db → List Write → Prop) (start : Db) (id : PyStr)
    (tenantSpec : TenantSpec) (workspaceSpec : WorkspaceSpec) :
    Except Exn Bool → List (Db × List Write) → Db → Prop
  | .ok true, done, db => done = [] ∧ Env (engine d) index G [] start db ∧
      (Admitted rt d G start tenantSpec workspaceSpec → HasTenant db tenantSpec ∨ IdTaken db id)
  | .ok false, done, db => done = [] ∧ Env (engine d) index G [] start db ∧
      (Admitted rt d G start tenantSpec workspaceSpec →
        RetryRefused d G start id tenantSpec workspaceSpec db)
  | .error e, done, db => done = [] ∧ Env (engine d) index G [] start db ∧ Unhandled e

/-- **`_retryable_missing_workspace` after a conflict.** -/
theorem retryableMissingWorkspace_contract (rt : Runtime) (id : PyStr)
    (hF : ∀ e, F e → Unhandled e)
    (hstart : Env (engine d) index G [] start db)
    (hfails : Admitted rt d G start tenantSpec workspaceSpec → IdTaken db id ∨
      (TenantFirst d G start tenantSpec workspaceSpec ∧ HasTenant db tenantSpec)) :
    Sat (engine d) index F G (RetryPost rt d G start id tenantSpec workspaceSpec)
      (retryableMissingWorkspace tenantSpec workspaceSpec) db [] [] [] := by
  have hfault : ∀ {held : List RowLock} {db₁ : Db}, Env (engine d) index G [] start db₁ → ∀ e, F e →
      ∀ db₂, Env (engine d) index G held db₁ db₂ → ∀ db₃, Env (engine d) index G [] db₂ db₃ →
        RetryPost rt d G start id tenantSpec workspaceSpec (.error e) [] db₃ := by
    intro held db₁ hstart₁ e he db₂ henv₂ db₃ henv₃
    exact ⟨rfl, env_from (env_from hstart₁ henv₂) henv₃, hF e he⟩
  have hfalse : ∀ {db₁ : Db}, Env (engine d) index G [] start db₁ →
      (Admitted rt d G start tenantSpec workspaceSpec →
        RetryRefused d G start id tenantSpec workspaceSpec db₁) →
      ∀ db₂, Env (engine d) index G [] db₁ db₂ →
        RetryPost rt d G start id tenantSpec workspaceSpec (.ok false) [] db₂ := by
    intro db₁ hstart₁ h db₂ henv₂
    exact ⟨rfl, env_from hstart₁ henv₂, fun hadm => (h hadm).grows (env_grows henv₂)⟩
  unfold retryableMissingWorkspace
  refine sat_readSession (Body.sat_bind (Body.sat_select ?_ (hfault hstart)))
  intro db₁ henv₁
  have hstart₁ := env_from hstart henv₁
  have hgrows₁ := env_grows henv₁
  rw [Engine.view_nil]
  show Body.Sat _ _ _ _ _ _ (if _ then _ else _) _ _ _
  split
  · next hnone =>
    -- the tenant is there, as the request has it
    refine hfalse hstart₁ (fun hadm => ?_)
    rcases hfails hadm with hid | ⟨_, ht⟩
    · exact .inl (hid.grows hgrows₁)
    · have ha := hadm db₁ hstart₁
      obtain ⟨t, hfind, _, hslug, hname⟩ :=
        ha.agrees.findTenant (ha.storedTenant (ht.grows hgrows₁))
      rw [hfind] at hnone
      simp [hslug, hname] at hnone
  refine Body.sat_bind (Body.sat_select ?_ (hfault hstart₁))
  intro db₂ henv₂
  have hstart₂ := env_from hstart₁ henv₂
  have hgrows₂ := hgrows₁.trans (env_grows henv₂)
  rw [Engine.view_nil]
  show Body.Sat _ _ _ _ _ _ (if _ then _ else _) _ _ _
  split
  · next hsome =>
    refine hfalse hstart₂ (fun hadm => ?_)
    rcases hfails hadm with hid | ⟨hfirst, _⟩
    · exact .inl (hid.grows hgrows₂)
    · obtain ⟨w, hfind⟩ := Option.isSome_iff_exists.mp hsome
      obtain ⟨hmem, hid⟩ := findWorkspace_some hfind
      exact .inr ⟨hfirst, (hadm db₂ hstart₂).hasWorkspace_of_mem hmem (.inl hid)⟩
  refine Body.sat_bind (Body.sat_select ?_ (hfault hstart₂))
  intro db₃ henv₃
  have hstart₃ := env_from hstart₂ henv₃
  have hgrows₃ := hgrows₂.trans (env_grows henv₃)
  rw [Engine.view_nil]
  cases hfind : db₃.workspaces.find? (fun w =>
      w.tenantId == tenantSpec.id.text && w.slug == workspaceSpec.slug) with
  | some w =>
    refine hfalse hstart₃ (fun hadm => ?_)
    rcases hfails hadm with hid | ⟨hfirst, _⟩
    · exact .inl (hid.grows hgrows₃)
    · have hslug := List.find?_some hfind
      simp only [Bool.and_eq_true, beq_iff_eq] at hslug
      exact .inr ⟨hfirst, (hadm db₃ hstart₃).hasWorkspace_of_mem
        (List.mem_of_find?_eq_some hfind) (.inr hslug)⟩
  | none =>
    intro db₄ henv₄
    refine ⟨rfl, env_from hstart₃ henv₄, fun hadm => ?_⟩
    have hgrows₄ := hgrows₃.trans (env_grows henv₄)
    rcases hfails hadm with hid | ⟨_, ht⟩
    · exact .inr (hid.grows hgrows₄)
    · exact .inl (ht.grows hgrows₄)

end Handling

/-! ## §5. The call. -/

/-- **Why `provision_scope` may raise** over stored rows that admit the request. -/
def ProvisionFails (d : Dialect) (G : Db → List Write → Prop) (start : Db) (sup sup' : Supply)
    (tenantSpec : TenantSpec) (workspaceSpec : WorkspaceSpec) (e : Exn) (db : Db) : Prop :=
  Unhandled e ∨ IdTaken db (sup.uuid 0) ∨ IdTaken db (sup'.uuid 0) ∨
    (TenantFirst d G start tenantSpec workspaceSpec ∧
      HasWorkspace db ⟨tenantSpec.id, workspaceSpec.id⟩)

/-- What `provision_scope` commits, in its first or its second attempt. -/
def ScopeProvisioned (rt : Runtime) (d : Dialect) (sup sup' : Supply) (tenantSpec : TenantSpec)
    (workspaceSpec : WorkspaceSpec) (db : Db) (ws : List Write) (r : ScopeProvisioning) : Prop :=
  ScopeSettled rt d sup tenantSpec workspaceSpec db ws r ∨
    ScopeSettled rt d sup' tenantSpec workspaceSpec db ws r

/-- **The contract of `provision_scope`**, for a call that begins at `start`. -/
theorem provisionScope_contract (hF : ∀ e, F e → Unhandled e)
    (hown : workspaceSpec.tenantId = tenantSpec.id)
    (hG : ∀ db ws r, ScopeProvisioned rt d sup sup' tenantSpec workspaceSpec db ws r →
      index.Fresh db ws → G db ws) (hnil : ∀ db, G db []) :
    Sat (engine d) index F G
      (Ends d G (ScopeProvisioned rt d sup sup' tenantSpec workspaceSpec)
        (IsExisting tenantSpec workspaceSpec)
        (FailsFrom rt d G start tenantSpec workspaceSpec
          (ProvisionFails d G start sup sup' tenantSpec workspaceSpec)))
      (provisionScope rt d sup sup' tenantSpec workspaceSpec) start [] [] [] := by
  unfold provisionScope
  refine provisionAttempt_contract hF hown (fun _ _ _ h => .inl h) hG hnil ?_
    (fun e db h => ⟨h.1, fun hadm => .inl (h.2 hadm)⟩)
  intro e db₁ hcf hfails
  refine sat_bind ((retryableMissingWorkspace_contract rt (sup.uuid 0) hF hfails.1
    (fun hadm => ?_)).imp ?_)
  · rcases hfails.2 hadm with ⟨_, hno⟩ | ⟨_, h⟩
    · rw [hno] at hcf
      cases hcf
    · exact h
  rintro (e' | (_ | _)) done db₂ hpost
  · obtain ⟨rfl, hstart₂, hun⟩ := hpost
    exact sat_raise_ends (fun db₃ henv₃ => ⟨env_from hstart₂ henv₃, fun _ => .inl hun⟩)
  · obtain ⟨rfl, hstart₂, hrefused⟩ := hpost
    refine sat_raise_ends (fun db₃ henv₃ => ⟨env_from hstart₂ henv₃, fun hadm => ?_⟩)
    rcases (hrefused hadm).grows (env_grows henv₃) with h | h
    · exact .inr (.inl h)
    · exact .inr (.inr (.inr h))
  · -- the second attempt begins with the tenant stored
    obtain ⟨rfl, hstart₂, htenant⟩ := hpost
    refine provisionAttempt_contract hF hown (fun _ _ _ h => .inr h) hG hnil ?_ ?_
    · intro e' db₃ hcf' hfails'
      refine sat_raise_ends (fun db₄ henv₄ => ?_)
      refine ⟨env_from (env_from hstart₂ hfails'.1) henv₄, fun hadm => ?_⟩
      have hgrows := env_grows henv₄
      have hadm₂ : Admitted rt d G db₂ tenantSpec workspaceSpec :=
        fun db henv => hadm db (env_from hstart₂ henv)
      rcases htenant hadm with ht | hid
      · rcases hfails'.2 hadm₂ with ⟨_, hno⟩ | ⟨_, hid' | ⟨⟨hno, _⟩, _⟩⟩
        · rw [hno] at hcf'
          cases hcf'
        · exact .inr (.inr (.inl (hid'.grows hgrows)))
        · exact absurd ht hno
      · exact .inr (.inl (hid.grows ((env_grows hfails'.1).trans hgrows)))
    · intro e' db₃ hun
      exact ⟨env_from hstart₂ hun.1, fun hadm => .inl (hun.2 (fun db henv =>
        hadm db (env_from hstart₂ henv)))⟩

/-! ## §6. What a new workspace leaves. -/

theorem mem_provisionWrites {receipt : ReceiptRecord} {head : StreamHeadRecord} {x : Write}
    (h : x ∈ provisionWrites sup tenantSpec workspaceSpec receipt head) :
    x = .addWorkspace (workspaceRow tenantSpec.id workspaceSpec (sup.now 1)) ∨
    (∃ k : StreamKind, x = .addHead ⟨tenantSpec.id.text, workspaceSpec.id.text, k.value, 0, none,
      (sup.now (2 + k.ordinal)).stamp⟩) ∨
    x = .addRow (.receipt receipt) ∨
    ∃ head', x = .updateHead head' := by
  unfold provisionWrites at h
  rcases List.mem_append.mp h with h | h
  · rcases List.mem_cons.mp h with h | h
    · exact .inl h
    · obtain ⟨head', hhead, rfl⟩ := List.mem_map.mp h
      obtain ⟨k, _, rfl⟩ := List.mem_map.mp hhead
      exact .inr (.inl ⟨k, rfl⟩)
  · change x ∈ [Write.addRow (.receipt receipt), .updateHead _] at h
    simp only [List.mem_cons, List.not_mem_nil, or_false] at h
    rcases h with h | h
    · exact .inr (.inr (.inl h))
    · exact .inr (.inr (.inr ⟨_, h⟩))

/-- The rows that an attempt may commit. -/
theorem ScopeCommit.mem {ws : List Write} {r : ScopeProvisioning}
    (h : ScopeCommit rt sup tenantSpec workspaceSpec ws r) :
    (∀ t, .addTenant t ∈ ws → t = tenantRow tenantSpec (sup.now 0)) ∧
    (∀ w, .addWorkspace w ∈ ws → r.workspaceCreated = true ∧
      w = workspaceRow tenantSpec.id workspaceSpec (sup.now 1)) ∧
    (∀ x, .addRow x ∈ ws → r.workspaceCreated = true ∧ ∃ receipt, x = .receipt receipt ∧
      provisioningRow rt (sup.uuid 0) ⟨tenantSpec.id, workspaceSpec.id⟩ tenantSpec workspaceSpec 1
        none (sup.now 7).stamp = .ok receipt) := by
  have hrows : ∀ {receipt head x}, x ∈ provisionWrites sup tenantSpec workspaceSpec receipt head →
      (∀ t, x ≠ .addTenant t) ∧
      (∀ w, x = .addWorkspace w → w = workspaceRow tenantSpec.id workspaceSpec (sup.now 1)) ∧
      ∀ y, x = .addRow y → y = .receipt receipt := by
    intro receipt head x hx
    rcases mem_provisionWrites hx with rfl | ⟨_, rfl⟩ | rfl | ⟨_, rfl⟩
    · exact ⟨by simp, fun w hw => by cases hw; rfl, by simp⟩
    · exact ⟨by simp, by simp, by simp⟩
    · exact ⟨by simp, by simp, fun y hy => by cases hy; rfl⟩
    · exact ⟨by simp, by simp, by simp⟩
  cases h with
  | tenant => simp
  | workspace hrow =>
    refine ⟨fun t ht => absurd rfl ((hrows ht).1 t), fun w hw => ⟨rfl, (hrows hw).2.1 w rfl⟩, ?_⟩
    intro x hx
    exact ⟨rfl, _, (hrows hx).2.2 x rfl, hrow⟩
  | both hrow =>
    refine ⟨fun t ht => ?_, fun w hw => ?_, fun x hx => ?_⟩
    · rcases List.mem_cons.mp ht with ht | ht
      · cases ht
        rfl
      · exact absurd rfl ((hrows ht).1 t)
    · rcases List.mem_cons.mp hw with hw | hw
      · cases hw
      · exact ⟨rfl, (hrows hw).2.1 w rfl⟩
    · rcases List.mem_cons.mp hx with hx | hx
      · cases hx
      · exact ⟨rfl, _, (hrows hx).2.2 x rfl, hrow⟩

/-- **A commit with a workspace** brings its row and its receipt. -/
theorem ScopeCommit.created {ws : List Write} {r : ScopeProvisioning}
    (h : ScopeCommit rt sup tenantSpec workspaceSpec ws r) (hc : r.workspaceCreated = true) :
    .addWorkspace (workspaceRow tenantSpec.id workspaceSpec (sup.now 1)) ∈ ws ∧
    ∃ receipt, receiptsOf ws = [receipt] ∧ r.receiptHash = some receipt.recordHash ∧
      provisioningRow rt (sup.uuid 0) ⟨tenantSpec.id, workspaceSpec.id⟩ tenantSpec workspaceSpec 1
        none (sup.now 7).stamp = .ok receipt := by
  have hreceipts : ∀ receipt head,
      receiptsOf (provisionWrites sup tenantSpec workspaceSpec receipt head) = [receipt] := by
    intro receipt head
    rfl
  cases h with
  | tenant => cases hc
  | workspace hrow =>
    exact ⟨by simp [provisionWrites], _, hreceipts _ _, rfl, hrow⟩
  | both hrow =>
    refine ⟨by simp [provisionWrites], _, ?_, rfl, hrow⟩
    exact hreceipts _ _

/-- **The one receipt that claims to provision a new workspace.** -/
theorem ScopeCommit.provisioningReceipts {ws : List Write} {r : ScopeProvisioning}
    (hi : StoreInv rt db) (hf : index.Fresh db ws)
    (h : ScopeCommit rt sup tenantSpec workspaceSpec ws r) (hc : r.workspaceCreated = true) :
    ∃ receipt, Lyte.provisioningReceipts ((engine d).commit db ws)
        ⟨tenantSpec.id, workspaceSpec.id⟩ = [receipt.stored d] ∧
      r.receiptHash = some receipt.recordHash ∧
      provisioningRow rt (sup.uuid 0) ⟨tenantSpec.id, workspaceSpec.id⟩ tenantSpec workspaceSpec 1
        none (sup.now 7).stamp = .ok receipt := by
  obtain ⟨hw, receipt, hreceipts, hhash, hrow⟩ := h.created hc
  have hnone : Lyte.provisioningReceipts db ⟨tenantSpec.id, workspaceSpec.id⟩ = [] := by
    rw [provisioningReceipts_eq, List.filter_eq_nil_iff]
    intro x hx hclaims
    rw [Bool.and_eq_true] at hclaims
    obtain ⟨ht, hwid⟩ := inScope_ids hclaims.1
    obtain ⟨w, hmem, _, hid⟩ := hi.inScope .receipts (.receipt x) (List.mem_map.mpr ⟨x, hx, rfl⟩)
    refine hf.unused (.workspaceId workspaceSpec.id.text) (List.mem_flatMap.mpr ⟨_, hw, ?_⟩)
      (mem_keys_workspaceId.mpr ⟨w, hmem, hid.trans hwid⟩)
    simp [Write.keys, WorkspaceRecord.keys, workspaceRow]
  refine ⟨receipt, ?_, hhash, hrow⟩
  have hin : receipt.inScope ⟨tenantSpec.id, workspaceSpec.id⟩ = true :=
    (provisioningRow_sealed hrow).sealed.inScope
  rw [provisioningReceipts_eq] at hnone
  rw [provisioningReceipts_eq, receipts_after_commit, List.filter_append, hnone, hreceipts,
    List.nil_append, List.map_singleton, List.filter_singleton, inScope_stored,
    claimsProvisioning_stored, hin, provisioningRow_claims hrow]
  rfl

/-- It closes. -/
theorem ScopeCommit.receiptCloses {ws : List Write} {r : ScopeProvisioning}
    (hi : StoreInv rt db) (hf : index.Fresh db ws)
    (h : ScopeCommit rt sup tenantSpec workspaceSpec ws r) (hc : r.workspaceCreated = true) :
    ReceiptCloses rt d ((engine d).commit db ws) tenantSpec workspaceSpec r.receiptHash := by
  obtain ⟨receipt, hreceipts, hhash, hrow⟩ := h.provisioningReceipts (d := d) hi hf hc
  unfold ReceiptCloses
  rw [hreceipts, hhash]
  exact provisioningReceiptHash_new hrow

end Lyte
