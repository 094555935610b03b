import Lyte.Lib.Schedule
import Lyte.Persistence.Idempotency
import Lyte.Persistence.ProvisionContract

/-
  Lyte.Persistence.ProvisionConvergence — many provisioning requests at once.

  Requests that do not disagree with each other or with what is stored all end
  with the scope they asked for, and one of them has created it.  The exception
  is a request that loses the race for its tenant to a request for another
  workspace while a third request, for the same workspace as its own, commits
  between its two looks at that workspace: it is told of a conflict.

      provision_scope_converges   a request for which this cannot happen never
                                  raises ProvisioningConflict, and a workspace
                                  is created once;
      provision_scope_overtaken   three requests of which one is told so.
-/

namespace Lyte

open Transact

variable {rt : Runtime} {d : Dialect}

/-! ## §1. Requests. -/

/-- A request, and what it draws from outside in its two attempts. -/
structure ProvisionRequest where
  tenantSpec : TenantSpec
  workspaceSpec : WorkspaceSpec
  sup : Supply
  retry : Supply

namespace ProvisionRequest

def prog (rt : Runtime) (d : Dialect) (q : ProvisionRequest) : StoreProg ScopeProvisioning :=
  provisionScope rt d q.sup q.retry q.tenantSpec q.workspaceSpec

def scope (q : ProvisionRequest) : Scope := ⟨q.tenantSpec.id, q.workspaceSpec.id⟩

/-- The ids of the receipts it may write. -/
def receiptIds (q : ProvisionRequest) : List PyStr := [q.sup.uuid 0, q.retry.uuid 0]

/-- **Two requests do not disagree** about the id, the slug or the name of a
tenant or a workspace. -/
structure Compatible (a b : ProvisionRequest) : Prop where
  tenant : a.tenantSpec.id = b.tenantSpec.id ∨ a.tenantSpec.slug = b.tenantSpec.slug →
    a.tenantSpec = b.tenantSpec
  workspace : a.workspaceSpec.id = b.workspaceSpec.id ∨
    (a.tenantSpec.id = b.tenantSpec.id ∧ a.workspaceSpec.slug = b.workspaceSpec.slug) →
    a.tenantSpec = b.tenantSpec ∧ a.workspaceSpec = b.workspaceSpec

/-- What the request may commit. -/
def Commits (rt : Runtime) (d : Dialect) (q : ProvisionRequest) :
    Db → List Write → ScopeProvisioning → Prop :=
  ScopeProvisioned rt d q.sup q.retry q.tenantSpec q.workspaceSpec

end ProvisionRequest

/-- Every commit of the requests, as others see it. -/
def ByRequests {ι : Type} (rt : Runtime) (d : Dialect) (q : ι → ProvisionRequest) (db : Db)
    (ws : List Write) : Prop :=
  ws = [] ∨ ∃ i r, (q i).Commits rt d db ws r

/-- **Requests that agree**, with each other and with what is stored. -/
structure Agreeing {ι : Type} (rt : Runtime) (d : Dialect) (q : ι → ProvisionRequest) (db : Db) :
    Prop where
  own : ∀ i, (q i).workspaceSpec.tenantId = (q i).tenantSpec.id
  compatible : ∀ i j, (q i).Compatible (q j)
  admitted : ∀ i, AdmitsScope rt d db (q i).tenantSpec (q i).workspaceSpec

/-! ## §2. Commits keep the agreement. -/

section Preservation

variable {ι : Type} {q : ι → ProvisionRequest} {db : Db} {ws : List Write} {r : ScopeProvisioning}

theorem ProvisionRequest.Commits.cases {p : ProvisionRequest} (h : p.Commits rt d db ws r) :
    ∃ sup, sup.uuid 0 ∈ p.receiptIds ∧
      ScopeSettled rt d sup p.tenantSpec p.workspaceSpec db ws r := by
  rcases h with h | h
  · exact ⟨p.sup, by simp [receiptIds], h⟩
  · exact ⟨p.retry, by simp [receiptIds], h⟩

/-- **One commit of a request** leaves the rows admitting every other one. -/
theorem AdmitsScope.commit {a b : ProvisionRequest} {sup : Supply} (hab : a.Compatible b)
    (ha : AdmitsScope rt d db a.tenantSpec a.workspaceSpec)
    (h : ScopeSettled rt d sup b.tenantSpec b.workspaceSpec db ws r)
    (hf : index.Fresh db ws) :
    AdmitsScope rt d ((engine d).commit db ws) a.tenantSpec a.workspaceSpec := by
  obtain ⟨htenants, hworkspaces, hrows⟩ := h.commit.mem
  have hgrows := commit_grows d db ws
  have hsame : ∀ w', .addWorkspace w' ∈ ws → w'.id = a.workspaceSpec.id.text ∨
      (w'.tenantId = a.tenantSpec.id.text ∧ w'.slug = a.workspaceSpec.slug) →
      a.tenantSpec = b.tenantSpec ∧ a.workspaceSpec = b.workspaceSpec := by
    intro w' hw' hid
    obtain ⟨_, rfl⟩ := hworkspaces w' hw'
    refine hab.workspace (hid.imp (fun h => ?_) (fun h => ⟨?_, h.2.symm⟩))
    · exact congrArg Uuid.mk h.symm
    · exact congrArg Uuid.mk h.1.symm
  refine ⟨ha.inv.effect (h.commit.provisionCommit.effect hf) hf, ⟨?_, ?_⟩, ?_, ?_⟩
  · intro t ht hid
    rcases tenants_commit_cases ht with ht | ⟨t', ht', rfl⟩
    · exact ha.agrees.tenant t ht hid
    · have heq := htenants t' ht'
      subst heq
      have hspec := hab.tenant (hid.imp (fun h => congrArg Uuid.mk h.symm) (fun h => h.symm))
      rw [hspec]
      exact ⟨rfl, rfl, rfl⟩
  · intro w hw hid
    rcases workspaces_commit_cases hw with hw | ⟨w', hw', rfl⟩
    · exact ha.agrees.workspace w hw hid
    · obtain ⟨htspec, hwspec⟩ := hsame w' hw' hid
      obtain ⟨_, rfl⟩ := hworkspaces w' hw'
      rw [htspec, hwspec]
      exact ⟨rfl, rfl, rfl, rfl⟩
  · intro w hw hid
    rcases workspaces_commit_cases hw with hw | ⟨w', hw', rfl⟩
    · exact (ha.owned w hw hid).grows hgrows
    · obtain ⟨htspec, _⟩ := hsame w' hw' (.inl hid)
      obtain ⟨t, ht, htid, _⟩ := h.stored.tenant
      rw [htspec]
      exact ⟨t, ht, htid⟩
  · intro hws
    by_cases hold : HasWorkspace db ⟨a.tenantSpec.id, a.workspaceSpec.id⟩
    · -- the workspace is not the new one, so its receipts stay
      obtain ⟨hash, hcloses⟩ := ha.closes hold
      refine ⟨hash, ?_⟩
      unfold ReceiptCloses at hcloses ⊢
      rw [provisioningReceipts_commit]
      · exact hcloses
      · intro x hx hin
        obtain ⟨hc, receipt, heq, hrow⟩ := hrows _ hx
        cases heq
        obtain ⟨hw, _⟩ := h.commit.created hc
        have hsealed := (provisioningRow_sealed hrow).sealed
        obtain ⟨_, hwid⟩ := inScope_ids hin
        obtain ⟨w, hmem, _, hid⟩ := hold
        refine absurd (mem_keys_workspaceId.mpr ⟨w, hmem, hid.trans (hwid.symm.trans
          hsealed.workspace)⟩) (hf.unused _ (List.mem_flatMap.mpr ⟨_, hw, ?_⟩))
        simp [Write.keys, WorkspaceRecord.keys, workspaceRow]
    · obtain ⟨w, hw, htid, hid⟩ := hws
      rcases workspaces_commit_cases hw with hw | ⟨w', hw', rfl⟩
      · exact absurd ⟨w, hw, htid, hid⟩ hold
      · obtain ⟨htspec, hwspec⟩ := hsame w' hw' (.inl hid)
        rw [htspec, hwspec]
        exact ⟨_, h.commit.receiptCloses ha.inv hf (hworkspaces w' hw').1⟩

/-- **Whatever the requests commit**, they go on agreeing with what is stored. -/
theorem Agreeing.env {held : List RowLock} {db' : Db} (h : Agreeing rt d q db)
    (henv : Env (engine d) index (ByRequests rt d q) held db db') : Agreeing rt d q db' := by
  induction henv with
  | refl => exact h
  | commit _ hG hf _ ih =>
    rcases hG with rfl | ⟨j, r, hcommits⟩
    · exact ih
    · obtain ⟨sup, _, hsettled⟩ := hcommits.cases
      exact ⟨ih.own, ih.compatible,
        fun i => (ih.admitted i).commit (ih.compatible i j) hsettled hf⟩

end Preservation

/-! ## §3. Runs of requests. -/

/-- The request `i` has created the workspace `id`. -/
def CreatedBy {ι : Type} (c : Config Db Write RowLock Exn ScopeProvisioning ι) (i : ι)
    (id : Uuid) : Prop :=
  ∃ e ∈ c.log, e.who = i ∧ ∃ w, .addWorkspace w ∈ e.rows ∧ w.id = id.text

/-- **Receipt ids are drawn once**: no two requests draw the same, and none draws
one that is stored. -/
structure DistinctIds {ι : Type} (q : ι → ProvisionRequest) (db : Db) : Prop where
  apart : ∀ i j, i ≠ j → ∀ id ∈ (q i).receiptIds, id ∉ (q j).receiptIds
  unused : ∀ i, ∀ id ∈ (q i).receiptIds, ¬ IdTaken db id

/-- **A request that cannot be overtaken**: its tenant is stored already, or all
requests for the tenant ask for the same workspace, or no other one asks for
this workspace. -/
def Unmixed {ι : Type} (q : ι → ProvisionRequest) (db : Db) (i : ι) : Prop :=
  HasTenant db (q i).tenantSpec ∨
  (∀ j, (q j).tenantSpec.id = (q i).tenantSpec.id →
    (q j).workspaceSpec.id = (q i).workspaceSpec.id) ∨
  (∀ j, j ≠ i → (q j).workspaceSpec.id ≠ (q i).workspaceSpec.id)

/-- How a request has ended: it created its workspace or found it, some request
has created the workspace unless it was stored before, and only that one. -/
structure Converged {ι : Type} (q : ι → ProvisionRequest) (db : Db)
    (c : Config Db Write RowLock Exn ScopeProvisioning ι) (i : ι) (r : ScopeProvisioning) : Prop where
  state : r.state = py "CREATED" ∨ r.state = py "EXISTING"
  created : r.state = py "CREATED" ↔ CreatedBy c i (q i).workspaceSpec.id
  once : ¬ HasWorkspace db (q i).scope → ∃! j, CreatedBy c j (q i).workspaceSpec.id
  never : HasWorkspace db (q i).scope → ∀ j, ¬ CreatedBy c j (q i).workspaceSpec.id

section Runs

variable {ι : Type} [DecidableEq ι] {F : Exn → Prop} {q : ι → ProvisionRequest} {db₀ : Db}
variable {c : Config Db Write RowLock Exn ScopeProvisioning ι}

/-- What a request of a run promises. -/
def RequestPost (rt : Runtime) (d : Dialect) (q : ι → ProvisionRequest) (db₀ : Db) (i : ι) :
    Except Exn ScopeProvisioning → List (Db × List Write) → Db → Prop :=
  Ends d (ByRequests rt d q) ((q i).Commits rt d)
    (IsExisting (q i).tenantSpec (q i).workspaceSpec)
    (FailsFrom rt d (ByRequests rt d q) db₀ (q i).tenantSpec (q i).workspaceSpec
      (ProvisionFails d (ByRequests rt d q) db₀ (q i).sup (q i).retry (q i).tenantSpec
        (q i).workspaceSpec))

/-- **All requests keep their contracts**, in every interleaving. -/
theorem requests_inv (hF : ∀ e, F e → Unhandled e)
    (hown : ∀ i, (q i).workspaceSpec.tenantId = (q i).tenantSpec.id)
    (hreach : Reach (engine d) index F (.start db₀ (fun i => (q i).prog rt d)) c) :
    Inv (engine d) index F (ByRequests rt d q) (RequestPost rt d q db₀) db₀ c :=
  reach_inv (index_lawful d) (fun i => provisionScope_contract hF (hown i)
    (fun _ _ r h _ => .inr ⟨i, r, h⟩) (fun _ => .inl rfl)) hreach

variable (hinv : Inv (engine d) index F (ByRequests rt d q) (RequestPost rt d q db₀) db₀ c)
include hinv

/-- A commit that wrote rows is the only one of its request. -/
theorem request_commit {e : CommitEvent Db Write ι} (he : e ∈ c.log) (hne : e.rows ≠ []) :
    commitsOf c.log e.who = [(e.before, e.rows)] ∧
      ∃ r, (q e.who).Commits rt d e.before e.rows r := by
  have hout : Inv (engine d) index F (ByRequests rt d q) (fun i => Outcome (engine d) index
      (ByRequests rt d q) ((q i).Commits rt d)
      (IsExisting (q i).tenantSpec (q i).workspaceSpec) AnyExn) db₀ c := by
    refine hinv.imp (fun i r done db h => ?_)
    cases r with
    | ok r =>
      change Outcome _ _ _ _ _ _ _ _ _ at h
      cases h with
      | replayed hp hd => exact .replayed hp hd
      | committed hc hf henv => exact .committed hc hf henv
    | error e =>
      obtain ⟨rfl, _⟩ := h
      exact .failed trivial
  exact hout.commit_once (index_lawful d) he hne

/-- An index entry that is there now came with a request, or was there. -/
theorem entry_cases {k : Key} (hk : k ∈ c.db.keys) : k ∈ db₀.keys ∨
    ∃ e ∈ c.log, (∃ w ∈ e.rows, k ∈ w.keys) ∧ commitsOf c.log e.who = [(e.before, e.rows)] ∧
      ∃ sup, sup.uuid 0 ∈ (q e.who).receiptIds ∧ ∃ r, ScopeSettled rt d sup (q e.who).tenantSpec
        (q e.who).workspaceSpec e.before e.rows r := by
  rcases (hinv.logUsed k).mp hk with hk | ⟨e, he, hke⟩
  · exact .inl hk
  · obtain ⟨w, hw, hkw⟩ := List.mem_flatMap.mp hke
    have hne : e.rows ≠ [] := List.ne_nil_of_mem hw
    obtain ⟨honce, r, hcommits⟩ := request_commit hinv he hne
    obtain ⟨sup, hsup, hsettled⟩ := hcommits.cases
    exact .inr ⟨e, he, ⟨w, hw, hkw⟩, honce, sup, hsup, r, hsettled⟩

/-- **A workspace that is stored now** was stored before, or a request for it
created it. -/
theorem workspace_cases {id : Uuid} (hw : ∃ w ∈ c.db.workspaces, w.id = id.text) :
    (∃ w ∈ db₀.workspaces, w.id = id.text) ∨
      ∃ i, (q i).workspaceSpec.id = id ∧ CreatedBy c i id := by
  rcases entry_cases hinv (mem_keys_workspaceId.mpr hw) with hk | ⟨e, he, ⟨x, hx, hkx⟩, _, sup, _, r,
    hsettled⟩
  · exact .inl (mem_keys_workspaceId.mp hk)
  · obtain ⟨_, hworkspaces, hrows⟩ := hsettled.commit.mem
    cases x with
    | addWorkspace w =>
      have hwid : id.text = w.id := by simpa [Write.keys, WorkspaceRecord.keys] using hkx
      obtain ⟨_, heq⟩ := hworkspaces w hx
      refine .inr ⟨e.who, ?_, e, he, rfl, w, hx, hwid.symm⟩
      rw [heq] at hwid
      exact congrArg Uuid.mk hwid.symm
    | addTenant t => simp [Write.keys, TenantRecord.keys] at hkx
    | addHead h => simp [Write.keys, StreamHeadRecord.keys] at hkx
    | updateHead h => cases hkx
    | addRow y =>
      rcases mem_row_keys hkx with h | ⟨_, h⟩ | ⟨_, h⟩ | ⟨_, h⟩ | ⟨_, _, _, h⟩ <;> cases h

/-- **A receipt id that is taken** was taken before, or by the request that drew
it. -/
theorem id_cases {id : PyStr} (h : IdTaken c.db id) : IdTaken db₀ id ∨
    ∃ e ∈ c.log, id ∈ (q e.who).receiptIds := by
  rcases entry_cases hinv (mem_keys_receiptId.mpr h) with hk | ⟨e, he, ⟨y, hy, hky⟩, _, sup, hsup, r,
    hsettled⟩
  · exact .inl (mem_keys_receiptId.mp hk)
  · obtain ⟨_, _, hrows⟩ := hsettled.commit.mem
    cases y with
    | addRow y =>
      obtain ⟨_, receipt, rfl, hrow⟩ := hrows y hy
      have hid : receipt.id = sup.uuid 0 := by
        obtain ⟨_, m, _, hm, rfl⟩ := provisioningRow_ok hrow
        exact (sealed_of_seal hm).2.2.2.1
      rcases mem_row_keys hky with heq | ⟨_, heq⟩ | ⟨_, heq⟩ | ⟨_, heq⟩ | ⟨_, _, _, heq⟩
      · injection heq with _ heq
        refine .inr ⟨e, he, ?_⟩
        rw [heq]
        show receipt.id ∈ _
        rw [hid]
        exact hsup
      all_goals cases heq
    | addTenant t => simp [Write.keys, TenantRecord.keys] at hky
    | addWorkspace w => simp [Write.keys, WorkspaceRecord.keys] at hky
    | addHead h => simp [Write.keys, StreamHeadRecord.keys] at hky
    | updateHead h => cases hky

/-- No two requests create the same workspace. -/
theorem createdBy_unique {i j : ι} {id : Uuid} (hi : CreatedBy c i id) (hj : CreatedBy c j id) :
    i = j := by
  obtain ⟨e, he, rfl, w, hw, hid⟩ := hi
  obtain ⟨e', he', rfl, w', hw', hid'⟩ := hj
  have hkey : ∀ {e : CommitEvent Db Write ι} {w : WorkspaceRecord}, .addWorkspace w ∈ e.rows →
      w.id = id.text → Key.workspaceId id.text ∈ index.keysOf e.rows := by
    intro e w hw hid
    refine List.mem_flatMap.mpr ⟨_, hw, ?_⟩
    simp [Write.keys, WorkspaceRecord.keys, hid]
  by_contra hne
  have hdiff : e ≠ e' := fun h => hne (by rw [h])
  have hsymm : Std.Symm (fun e e' : CommitEvent Db Write ι =>
      ∀ k ∈ index.keysOf e.rows, k ∉ index.keysOf e'.rows) :=
    ⟨fun _ _ h k hk hk' => h k hk' hk⟩
  exact hinv.keys_apart.forall he he' hdiff _ (hkey hw hid) (hkey hw' hid')

omit hinv [DecidableEq ι] in
/-- Where all requests for a tenant ask for the same workspace, the tenant never
comes without it. -/
theorem tenantFirst_false {i : ι}
    (hsame : ∀ j, (q j).tenantSpec.id = (q i).tenantSpec.id →
      (q j).workspaceSpec.id = (q i).workspaceSpec.id) :
    ¬ TenantFirst d (ByRequests rt d q) db₀ (q i).tenantSpec (q i).workspaceSpec := by
  rintro ⟨hno, db, henv, ht, hw⟩
  refine hw ?_
  clear hw
  induction henv with
  | refl => exact absurd ht hno
  | @commit db' ws _ hG hf _ ih =>
    have hgrows := commit_grows d db' ws
    by_cases hbefore : HasTenant db' (q i).tenantSpec
    · exact (ih hbefore).grows hgrows
    · -- the tenant is one of the rows, and so is the workspace of its request
      obtain ⟨t, hmem, hid⟩ := ht
      rcases tenants_commit_cases hmem with hmem | ⟨t', ht', rfl⟩
      · exact absurd ⟨t, hmem, hid⟩ hbefore
      · rcases hG with rfl | ⟨j, r, hcommits⟩
        · cases ht'
        · obtain ⟨sup, _, hsettled⟩ := hcommits.cases
          have heq := hsettled.commit.mem.1 t' ht'
          subst heq
          have htid : (q j).tenantSpec.id = (q i).tenantSpec.id := congrArg Uuid.mk hid
          have hstored := hsettled.stored.hasWorkspace
          rw [htid, hsame j htid] at hstored
          exact hstored

/-- **A request that cannot be overtaken is not told of a conflict.** -/
theorem request_not_refused (hagree : Agreeing rt d q db₀) (hids : DistinctIds q db₀) {i : ι}
    {e : Exn} (hp : (c.calls i).prog = .raise e) (hun : Unmixed q db₀ i) :
    e.isProvisioningConflict = false := by
  obtain ⟨hdone, _, hwhy⟩ := hinv.raised hp
  have hnone : ∀ ev ∈ c.log, ev.who ≠ i := by
    rintro ev hev rfl
    have hmem := mem_commitsOf hev
    rw [hdone] at hmem
    cases hmem
  have hid : ∀ id ∈ (q i).receiptIds, ¬ IdTaken c.db id := by
    intro id hmem htaken
    rcases id_cases hinv htaken with h | ⟨ev, hev, hmem'⟩
    · exact hids.unused i id hmem h
    · exact hids.apart i ev.who (Ne.symm (hnone ev hev)) id hmem hmem'
  rcases hwhy (fun db henv => (hagree.env henv).admitted i) with h | h | h | ⟨hfirst, hw⟩
  · exact h.2
  · exact absurd h (hid _ (by simp [ProvisionRequest.receiptIds]))
  · exact absurd h (hid _ (by simp [ProvisionRequest.receiptIds]))
  · rcases hun with ht | hsame | hother
    · exact absurd ht hfirst.1
    · exact absurd hfirst (tenantFirst_false hsame)
    · obtain ⟨w, hmem, _, hwid⟩ := hw
      rcases workspace_cases hinv ⟨w, hmem, hwid⟩ with ⟨w', hmem', hwid'⟩ | ⟨j, hj, ev, hev, rfl, _⟩
      · exact absurd ((hagree.admitted i).owned w' hmem' hwid') hfirst.1
      · exact absurd hj (hother _ (hnone ev hev))

/-- A request answers CREATED where it has created its workspace, and EXISTING
where it has not. -/
theorem request_state (hagree : Agreeing rt d q db₀) {i : ι} {r : ScopeProvisioning}
    (hout : Outcome (engine d) index (ByRequests rt d q) ((q i).Commits rt d)
      (IsExisting (q i).tenantSpec (q i).workspaceSpec) (fun _ => False) (.ok r) (commitsOf c.log i)
      c.db) :
    (r.state = py "CREATED" ∨ r.state = py "EXISTING") ∧
      (r.state = py "CREATED" ↔ CreatedBy c i (q i).workspaceSpec.id) := by
  have hevent : ∀ db rows, (db, rows) ∈ commitsOf c.log i →
      ∃ e ∈ c.log, e.who = i ∧ e.before = db ∧ e.rows = rows := by
    intro db rows h
    obtain ⟨e, he, heq⟩ := List.mem_map.mp h
    cases heq
    obtain ⟨hmem, hwho⟩ := List.mem_filter.mp he
    exact ⟨e, hmem, by simpa using hwho, rfl, rfl⟩
  have hmine : ∀ e ∈ c.log, e.who = i → (e.before, e.rows) ∈ commitsOf c.log i := by
    rintro e he rfl
    exact mem_commitsOf he
  generalize hdone : commitsOf c.log i = done at hout
  cases hout with
  | replayed h hnil =>
    obtain ⟨⟨hash, rfl⟩, _⟩ := h
    have hne : py "EXISTING" ≠ py "CREATED" := by decide
    refine ⟨.inr rfl, fun h => absurd h hne, ?_⟩
    rintro ⟨e, he, hwho, w, hw, _⟩
    have hmem := hmine e he hwho
    rw [hdone] at hmem
    have hrows : e.rows = [] := hnil _ hmem
    rw [hrows] at hw
    cases hw
  | @committed _ db rows _ h hf _ =>
    obtain ⟨e, he, hwho, rfl, rfl⟩ := hevent db rows (by rw [hdone]; simp)
    obtain ⟨sup, _, hsettled⟩ := h.cases
    have hcreated : r.workspaceCreated = true := by
      by_contra hno
      -- its workspace was there before, and so was its tenant
      have hadm := ((hagree.env (hinv.logFrom e he)).admitted i)
      obtain ⟨w, hmem, hwid, _⟩ := hsettled.before (by simpa using hno)
      obtain ⟨t, ht, hid⟩ := hadm.owned w hmem hwid
      have hcommit := hsettled.commit
      generalize e.rows = ws at hcommit hf
      cases hcommit with
      | tenant =>
        refine hf.unused (.tenantId (q i).tenantSpec.id.text) ?_ (mem_keys_tenantId.mpr ⟨t, ht, hid⟩)
        simp [Index.keysOf, Write.keys, TenantRecord.keys, tenantRow]
      | workspace => exact hno rfl
      | both => exact hno rfl
    have hstate : r.state = py "CREATED" := by
      have hcommit := hsettled.commit
      generalize e.rows = ws at hcommit
      cases hcommit <;> rfl
    refine ⟨.inl hstate, fun _ => ⟨e, he, hwho, _, (hsettled.commit.created hcreated).1, rfl⟩,
      fun _ => hstate⟩

/-- **A request that returns has its workspace, created once.** -/
theorem request_converged (hagree : Agreeing rt d q db₀) {i : ι} {r : ScopeProvisioning}
    (hp : (c.calls i).prog = .ret r) : Converged q db₀ c i r := by
  have hout : Outcome (engine d) index (ByRequests rt d q) ((q i).Commits rt d)
    (IsExisting (q i).tenantSpec (q i).workspaceSpec) (fun _ => False) (.ok r) (commitsOf c.log i)
    c.db := hinv.returned hp
  -- the scope is stored, whoever created it
  have hstored : StoredScope c.db (q i).tenantSpec (q i).workspaceSpec := by
    generalize commitsOf c.log i = done at hout
    cases hout with
    | replayed h _ => exact h.2
    | committed h _ henv =>
      obtain ⟨sup, _, hsettled⟩ := h.cases
      exact hsettled.stored.grows (env_grows henv)
  have hcreator : ¬ HasWorkspace db₀ (q i).scope → ∃ j, CreatedBy c j (q i).workspaceSpec.id := by
    intro hno
    obtain ⟨_, w, hmem, hwid, _⟩ := hstored
    rcases workspace_cases hinv ⟨w, hmem, hwid⟩ with ⟨w', hmem', hwid'⟩ | ⟨j, _, hj⟩
    · exact absurd ((hagree.admitted i).hasWorkspace_of_mem hmem' (.inl hwid')) hno
    · exact ⟨j, hj⟩
  have hstate := request_state hinv hagree hout
  refine ⟨hstate.1, hstate.2, ?_, ?_⟩
  · intro hno
    obtain ⟨j, hj⟩ := hcreator hno
    exact ⟨j, hj, fun k hk => createdBy_unique hinv hk hj⟩
  · rintro ⟨w, hmem, _, hwid⟩ j ⟨e, he, _, w', hw', hid'⟩
    have hfrom := env_keys (hinv.logFrom e he) (mem_keys_workspaceId.mpr ⟨w, hmem, hwid⟩)
    refine (hinv.logOk e he).2.unused _ (List.mem_flatMap.mpr ⟨_, hw', ?_⟩) hfrom
    simp [Write.keys, WorkspaceRecord.keys, hid', ProvisionRequest.scope]

end Runs

/-- **Provisioning converges.**  Of requests that agree with each other and with
what is stored, in any interleaving, one that returns has created its scope or
found it, each workspace is created once, and one that cannot be overtaken is
not told of a conflict. -/
theorem provision_scope_converges (rt : Runtime) (d : Dialect) (F : Exn → Prop)
    (hF : ∀ e, F e → Unhandled e) {ι : Type} [DecidableEq ι] (q : ι → ProvisionRequest) (db₀ : Db)
    (hagree : Agreeing rt d q db₀) (hids : DistinctIds q db₀)
    (c : Config Db Write RowLock Exn ScopeProvisioning ι)
    (hreach : Reach (engine d) index F (.start db₀ (fun i => (q i).prog rt d)) c) (i : ι) :
    (∀ r, (c.calls i).prog = .ret r → Converged q db₀ c i r) ∧
      (Unmixed q db₀ i → ∀ e, (c.calls i).prog = .raise e → e.isProvisioningConflict = false) := by
  have hinv := requests_inv hF hagree.own hreach
  refine ⟨fun r hp => request_converged hinv hagree hp, ?_⟩
  intro hun e hp
  exact request_not_refused hinv hagree hids hp hun

/-! ## §4. An overtaken request. -/

def sampleTenantSpec : TenantSpec := ⟨py "tenant", py "Tenant", sampleScope.tenantId⟩

/-- Two requests for one workspace, and one for another workspace of the tenant. -/
def sampleRequests (i : Fin 3) : ProvisionRequest where
  tenantSpec := sampleTenantSpec
  workspaceSpec :=
    if i = 2 then ⟨sampleScope.tenantId, py "other", py "Other",
      ⟨py "33333333-3333-4333-8333-333333333333"⟩⟩
    else ⟨sampleScope.tenantId, py "workspace", py "Workspace", sampleScope.workspaceId⟩
  sup := .sample (py "a" ++ decimal i.val)
  retry := .sample (py "b" ++ decimal i.val)

/-- Request 0 misses the tenant, which request 2 then creates; it is refused, misses
its workspace as well, and looks again when request 1 has created it. -/
def sampleSchedule : List (Fin 3) :=
  [0] ++ List.replicate 13 2 ++ List.replicate 5 0 ++ List.replicate 12 1 ++ List.replicate 3 0

/-- Where that leaves the three requests. -/
def sampleOvertaken : Config Db Write RowLock Exn ScopeProvisioning (Fin 3) :=
  run (engine .sqlite) index (List.finRange 3) sampleSchedule
    (.start .empty (fun i => (sampleRequests i).prog .ascii .sqlite))

theorem sampleOvertaken_reach : Reach (engine .sqlite) index noFault
    (.start .empty (fun i => (sampleRequests i).prog .ascii .sqlite)) sampleOvertaken :=
  reach_run noFault List.mem_finRange sampleSchedule _

theorem sampleRequests_agreeing : Agreeing .ascii .sqlite sampleRequests .empty where
  own i := by
    show (if i = 2 then (_ : WorkspaceSpec) else _).tenantId = sampleScope.tenantId
    split <;> rfl
  compatible i j := by
    refine ⟨fun _ => rfl, fun h => ⟨rfl, ?_⟩⟩
    have hsame : i = 2 ↔ j = 2 := by
      revert h
      revert i j
      decide +kernel
    simp only [sampleRequests, hsame]
  admitted i :=
    { inv := storeInv_empty .ascii
      agrees := ⟨by simp [Db.empty], by simp [Db.empty]⟩
      owned := by simp [Db.empty]
      closes := by
        rintro ⟨w, hw, _⟩
        cases hw }

theorem sampleRequests_distinctIds : DistinctIds sampleRequests .empty where
  apart := by decide +kernel
  unused i id _ := by
    rintro ⟨r, hr, _⟩
    cases hr

/-- **A request is told of a conflict that nobody made.** -/
theorem provision_scope_overtaken : ¬ ∀ (rt : Runtime) (d : Dialect) (F : Exn → Prop),
    (∀ e, F e → Unhandled e) → ∀ (q : Fin 3 → ProvisionRequest) (db₀ : Db),
    Agreeing rt d q db₀ → DistinctIds q db₀ →
    ∀ c, Reach (engine d) index F (.start db₀ (fun i => (q i).prog rt d)) c →
    ∀ i e, (c.calls i).prog = .raise e → e.isProvisioningConflict = false := by
  intro hall
  have hnever := hall .ascii .sqlite noFault (fun _ h => h.elim) sampleRequests .empty
    sampleRequests_agreeing sampleRequests_distinctIds sampleOvertaken sampleOvertaken_reach 0
  have hraised : (sampleOvertaken.calls 0).prog.raised? =
      some (.provisioningConflict (py "scope provisioning did not converge")) := by decide +kernel
  have hrefused := hnever _ (Prog.eq_raise_of_raised? hraised)
  cases hrefused

/-- The two requests before it have created a workspace each, and nothing could
have overtaken the one for the other workspace. -/
theorem provision_scope_converges_sample : (∀ i, i ≠ 0 → ∃ r,
    (sampleOvertaken.calls i).prog = .ret r ∧
      Converged sampleRequests .empty sampleOvertaken i r) ∧
    Unmixed sampleRequests .empty 2 := by
  refine ⟨fun i hi => ?_, .inr (.inr (by decide +kernel))⟩
  have hreturned : ((sampleOvertaken.calls i).prog.returned?).isSome = true := by
    revert i
    decide +kernel
  obtain ⟨r, hr⟩ := Option.isSome_iff_exists.mp hreturned
  have hprog := Prog.eq_ret_of_returned? hr
  exact ⟨r, hprog, (provision_scope_converges .ascii .sqlite noFault (fun _ h => h.elim)
    sampleRequests .empty sampleRequests_agreeing sampleRequests_distinctIds sampleOvertaken
    sampleOvertaken_reach i).1 r hprog⟩

end Lyte
