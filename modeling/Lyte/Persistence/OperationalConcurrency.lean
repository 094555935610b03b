import Lyte.Lib.Versions
import Lyte.Persistence.Idempotency

/-
  Lyte.Persistence.OperationalConcurrency — versions of operational entities,
  written by any number of calls at once.

  `_write_operational` reads the latest version before it takes the head lock,
  a batch behind it; between the read and the COMMIT another call may have
  written.  The unique index over the versions of an entity is what keeps such
  a call from overwriting: `no_lost_update` says so of every reachable
  configuration.
-/

namespace Lyte

open Transact HashChain Versions

variable {rt : Runtime} {d : Dialect} {F : Exn → Prop}

/-! ## §1. The versions of one entity. -/

/-- The version numbers of an entity. -/
def versionsOf (db : Db) (scope : Scope) (kind id : PyStr) : List Int :=
  (entityVersions db scope kind id).map OperationalRecord.version

theorem entityVersion_key {scope : Scope} {kind id : PyStr} {db : Db} {o : OperationalRecord}
    (ho : o ∈ entityVersions db scope kind id) :
    Key.entityVersion scope.tenantId.text scope.workspaceId.text kind id o.version
      ∈ (Row.operational o).keys := by
  obtain ⟨_, hin, hkind, hid⟩ := mem_entityVersions.mp ho
  obtain ⟨ht, hw⟩ := inScope_ids hin
  simp [Row.keys, Row.ownKeys, ht, hw, hkind, hid]

/-- **The versions of an entity have no gaps.** -/
theorem versions_grounded {db : Db} (hi : StoreInv rt db) (scope : Scope) (kind id : PyStr) :
    Grounded (versionsOf db scope kind id) where
  nodup := by
    have hpair := hi.unique .operational
    unfold Db.rows at hpair
    rw [List.pairwise_map] at hpair
    have hsub : (entityVersions db scope kind id).Pairwise
        (fun a b => ∀ x ∈ (Row.operational a).keys, x ∉ (Row.operational b).keys) :=
      hpair.sublist List.filter_sublist
    unfold versionsOf
    rw [List.Nodup, List.pairwise_map]
    refine hsub.imp_of_mem ?_
    intro a b ha hb hkeys hv
    have hkb := entityVersion_key hb
    rw [← hv] at hkb
    exact hkeys _ (entityVersion_key ha) hkb
  pred := by
    intro v hv
    obtain ⟨o, ho, rfl⟩ := List.mem_map.mp hv
    obtain ⟨hmem, hin, hkind, hid⟩ := mem_entityVersions.mp ho
    rcases hi.versions o hmem with h1 | ⟨p, hp, hscope, hpk, hpid, hpv⟩
    · exact .inl h1
    · refine .inr (List.mem_map.mpr ⟨p, mem_entityVersions.mpr ⟨hp, ?_, ?_, ?_⟩, ?_⟩)
      · obtain ⟨ht, hw⟩ := inScope_ids hin
        simp [AppendOnlyMixin.inScope, hscope.1, hscope.2, ht, hw]
      · rw [hpk, hkind]
      · rw [hpid, hid]
      · omega

theorem latestVersion_none {os : List OperationalRecord} (h : latestVersion os = none) :
    os = [] := by
  cases os with
  | nil => rfl
  | cons r rs =>
    unfold latestVersion at h
    split at h
    · cases h
    · split at h <;> cases h

theorem latestVersion_max {os : List OperationalRecord} {r : OperationalRecord}
    (h : latestVersion os = some r) : ∀ o ∈ os, o.version ≤ r.version := by
  induction os generalizing r with
  | nil => cases h
  | cons x xs ih =>
    unfold latestVersion at h
    intro o ho
    split at h
    · next hnone =>
      cases h
      rw [latestVersion_none hnone, List.mem_singleton] at ho
      rw [ho]
    · next s hs =>
      have hmax := ih hs
      split at h
      · next hlt =>
        cases h
        rcases List.mem_cons.mp ho with rfl | ho
        · exact Int.le_refl _
        · have hle := hmax o ho
          omega
      · next hge =>
        cases h
        rcases List.mem_cons.mp ho with rfl | ho
        · omega
        · exact hmax o ho

/-- **The latest version is the number of versions.** -/
theorem currentVersion_eq {db : Db} (hi : StoreInv rt db) (scope : Scope) (kind id : PyStr) :
    currentVersion (latestOperational db scope kind id)
      = (versionsOf db scope kind id).length := by
  have hg := versions_grounded hi scope kind id
  unfold currentVersion latestOperational
  cases hl : latestVersion (entityVersions db scope kind id) with
  | none =>
    have hnil := latestVersion_none hl
    simp [versionsOf, hnil]
  | some r =>
    have hr : r.version ∈ versionsOf db scope kind id :=
      List.mem_map.mpr ⟨r, latestVersion_mem hl, rfl⟩
    refine hg.next (.inr hr) ?_
    intro hv
    obtain ⟨o, ho, hov⟩ := List.mem_map.mp hv
    have hle := latestVersion_max hl o ho
    change o.version = r.version + 1 at hov
    omega

/-! ## §2. What a call writes. -/

/-- The operational drafts of a call. -/
def StoreOp.drafts : StoreOp → List OperationalRecordDraft
  | .insertOperational _ draft _ => [draft]
  | .upsertOperational _ draft _ _ => [draft]
  | .upsertOperationalBatch _ drafts _ => drafts
  | _ => []

/-- A row made from a draft, behind a version that was read. -/
def Drafted (rt : Runtime) (db : Db) (draft : OperationalRecordDraft) (o : OperationalRecord) :
    Prop :=
  ∃ scope latest id sequence previousHash at_,
    SeenVersion db scope draft.entityKind.value draft.entityId latest ∧
      operationalRow rt id scope draft (currentVersion latest + 1) sequence previousHash at_ = .ok o

theorem BatchRows.drafted {sup : Supply} {scope : Scope} {at_ : Stamp} {db : Db} {i : Nat}
    {drafts : List OperationalRecordDraft} {head head' : StreamHeadRecord}
    {rows : List OperationalRecord} (h : BatchRows rt sup scope at_ db i drafts head rows head') :
    ∀ o ∈ rows, ∃ draft ∈ drafts, Drafted rt db draft o := by
  induction h with
  | nil =>
    intro o ho
    cases ho
  | skip _ _ ih =>
    intro o ho
    obtain ⟨draft, hd, hdrafted⟩ := ih o ho
    exact ⟨draft, List.mem_cons_of_mem _ hd, hdrafted⟩
  | write hrow _ ih =>
    intro o ho
    rcases List.mem_cons.mp ho with rfl | ho
    · exact ⟨_, List.mem_cons_self, _, _, _, _, _, _, seenVersion_latest _ _ _ _, hrow⟩
    · obtain ⟨draft, hd, hdrafted⟩ := ih o ho
      exact ⟨draft, List.mem_cons_of_mem _ hd, hdrafted⟩

/-- **Every version that a call commits is made from one of its drafts.** -/
theorem StoreCall.Commits.drafted {c : StoreCall} {db : Db} {ws : List Write} {r : StoreResult}
    (h : c.Commits rt db ws r) {o : OperationalRecord} (ho : Write.addRow (.operational o) ∈ ws) :
    ∃ draft ∈ c.op.drafts, Drafted rt db draft o := by
  cases h with
  | tenant => simp at ho
  | workspace _ h =>
    cases h
    rcases workspace_writes ho with ho | ⟨_, _, ho⟩ <;> cases ho
  | provisioning _ h =>
    have hno : ∀ {sup : Supply} {t w rec head}, Write.addRow (.operational o) ∉
        provisionWrites sup t w rec head := by
      intro sup t w rec head hmem
      rcases List.mem_append.mp hmem with hmem | hmem
      · rcases workspace_writes hmem with hmem | ⟨_, _, hmem⟩ <;> cases hmem
      · simp [mem_appendWrites] at hmem
    have hnone : ∀ {sup : Supply} {t w result}, ProvisionCommit rt sup t w db ws result → False := by
      intro sup t w result hp
      cases hp with
      | tenant => simp at ho
      | workspace => exact hno ho
      | both =>
        rcases List.mem_cons.mp ho with ho | ho
        · cases ho
        · exact hno ho
    rcases h with h | h
    · exact (hnone h).elim
    · exact (hnone h).elim
  | receipt _ _ h => cases h <;> simp [mem_appendWrites] at ho
  | memory _ h => cases h; simp [mem_appendWrites] at ho
  | anatomy _ h => cases h; simp [mem_appendWrites] at ho
  | bundle _ _ h =>
    obtain ⟨_, _, hc, _⟩ := h
    cases hc
    simp [mem_appendWrites, BundleRows.appends] at ho
  | insert hop h =>
    cases h with
    | mk _ hseen _ _ _ hrow =>
      simp [mem_appendWrites] at ho
      rw [ho, hop]
      exact ⟨_, List.mem_singleton.mpr rfl, _, _, _, _, _, _, hseen, hrow⟩
  | upsert hop h =>
    cases h with
    | mk _ hseen _ _ _ hrow =>
      simp [mem_appendWrites] at ho
      rw [ho, hop]
      exact ⟨_, List.mem_singleton.mpr rfl, _, _, _, _, _, _, hseen, hrow⟩
  | batch hop h =>
    cases h with
    | mk _ _ hrows _ =>
      simp [mem_appendWrites] at ho
      rw [hop]
      exact hrows.drafted o ho

/-- A version follows one that is there, or is the first. -/
def Follows (db : Db) (o : OperationalRecord) : Prop :=
  o.version = 1 ∨ ∃ p ∈ db.operational, SameScope p.toAppendOnlyMixin o.toAppendOnlyMixin ∧
    p.entityKind = o.entityKind ∧ p.entityId = o.entityId ∧ o.version = p.version + 1

/-- **Every version that a call commits follows one that is there.** -/
theorem StoreCall.Commits.follows {c : StoreCall} {db : Db} {ws : List Write} {r : StoreResult}
    (h : c.Commits rt db ws r) {o : OperationalRecord} (ho : Write.addRow (.operational o) ∈ ws) :
    Follows db o := by
  obtain ⟨_, _, _, _, _, _, _, _, hseen, hrow⟩ := h.drafted ho
  exact linked_version hseen hrow

/-- The version that a call expects to be the latest one. -/
def StoreOp.expects : StoreOp → Option (Scope × OperationalRecordDraft × Int)
  | .insertOperational scope draft _ => some (scope, draft, 0)
  | .upsertOperational scope draft (some v) _ => some (scope, draft, v)
  | _ => none

/-- A call that expects a version commits one row, of its entity, behind that
version. -/
theorem StoreCall.Commits.expects {c : StoreCall} {db : Db} {ws : List Write} {r : StoreResult}
    (h : c.Commits rt db ws r) {scope : Scope} {draft : OperationalRecordDraft} {v : Int}
    (hop : c.op.expects = some (scope, draft, v)) :
    ∃ row, r = .operational row ∧ addedRows ws .operational = [.operational row] ∧
      row.inScope scope = true ∧ row.entityKind = draft.entityKind.value ∧
      row.entityId = draft.entityId ∧ row.version = v + 1 := by
  have hone : ∀ {insertOnly expected at_ row},
      OperationalCommit rt c.sup scope draft insertOnly expected at_ db ws row →
      expected = some v →
      addedRows ws .operational = [.operational row] ∧ row.inScope scope = true ∧
        row.entityKind = draft.entityKind.value ∧ row.entityId = draft.entityId ∧
        row.version = v + 1 := by
    intro insertOnly expected at_ row hc he
    cases hc with
    | mk _ _ _ hexp _ hrow =>
      have hin := (operationalRow_sealed hrow).sealed.inScope
      obtain ⟨_, _, _, _, hm⟩ := operationalRow_ok hrow
      refine ⟨by simp [appendWrites, StreamAppend.writes, addedRows, Write.row?], hin, ?_⟩
      rw [hexp v he, hm]
      exact ⟨rfl, rfl, rfl⟩
  cases h with
  | insert hc h =>
    rw [hc] at hop
    cases hop
    exact ⟨_, rfl, hone h rfl⟩
  | @upsert _ _ expected _ _ _ hc h =>
    rw [hc] at hop
    cases expected with
    | none => cases hop
    | some v =>
      cases hop
      exact ⟨_, rfl, hone h rfl⟩
  | tenant hc => rw [hc] at hop; cases hop
  | workspace hc => rw [hc] at hop; cases hop
  | provisioning hc => rw [hc] at hop; cases hop
  | receipt hc => rw [hc] at hop; cases hop
  | memory hc => rw [hc] at hop; cases hop
  | anatomy hc => rw [hc] at hop; cases hop
  | bundle hc => rw [hc] at hop; cases hop
  | batch hc => rw [hc] at hop; cases hop

/-! ## §3. No lost update. -/

section Lost

variable {ι : Type} [DecidableEq ι] {calls : ι → StoreCall} {c : StoreConfig ι} {db₀ : Db}

/-- Two rows of the same version of the same entity. -/
def SameVersion (a b : OperationalRecord) : Prop :=
  SameScope a.toAppendOnlyMixin b.toAppendOnlyMixin ∧ a.entityKind = b.entityKind ∧
    a.entityId = b.entityId ∧ a.version = b.version

/-- **What concurrent operational writes have done.** -/
structure NoLostUpdate (d : Dialect) (db₀ : Db) (calls : ι → StoreCall) (c : StoreConfig ι) :
    Prop where
  /-- The versions of every entity are 1 … n. -/
  contiguous : ∀ scope kind id, (versionsOf c.db scope kind id).Perm
    (upTo (versionsOf c.db scope kind id).length)
  /-- Every committed version that was not there before was written by a call
  that has not failed … -/
  written : ∀ o ∈ c.db.operational, o ∈ db₀.operational ∨ ∃ e ∈ c.log, ∃ row,
    Write.addRow (.operational row) ∈ e.rows ∧ Row.operational o = (Row.operational row).stored d ∧
      ∀ x, (c.calls e.who).prog ≠ .raise x
  /-- … in a commit that no other commit repeats. -/
  once : c.log.Pairwise (fun e e' => ∀ a b, Write.addRow (.operational a) ∈ e.rows →
    Write.addRow (.operational b) ∈ e'.rows → ¬ SameVersion a b)
  /-- It is the version behind the latest one that was committed then. -/
  next : ∀ e ∈ c.log, ∀ o, Write.addRow (.operational o) ∈ e.rows → ∀ scope,
    o.inScope scope = true →
    o.version = currentVersion (latestOperational e.before scope o.entityKind o.entityId) + 1
  /-- A call that expected a version and returned has committed the one behind
  it, and the expected one was the latest. -/
  expected : ∀ i scope draft v result, (calls i).op.expects = some (scope, draft, v) →
    (c.calls i).prog = .ret result →
    ∃ e ∈ c.log, e.who = i ∧ commitsOf c.log i = [(e.before, e.rows)] ∧ ∃ row,
      result = .operational row ∧ addedRows e.rows .operational = [.operational row] ∧
      row.inScope scope = true ∧ row.entityKind = draft.entityKind.value ∧
      row.entityId = draft.entityId ∧ row.version = v + 1 ∧
      currentVersion (latestOperational e.before scope draft.entityKind.value draft.entityId) = v
  /-- A call that failed has committed nothing. -/
  failed : ∀ i x, (c.calls i).prog = .raise x → commitsOf c.log i = []

omit [DecidableEq ι] in
/-- The rows of the database are those at the start and those of the commits. -/
theorem rows_replay (log : List (CommitEvent Db Write ι)) (db : Db) (k : StreamKind) :
    (log.foldl (fun db e => (engine d).commit db e.rows) db).rows k
      = db.rows k ++ log.flatMap (fun e => (addedRows e.rows k).map (Row.stored d)) := by
  induction log generalizing db with
  | nil => simp
  | cons e log ih =>
    rw [List.foldl_cons, ih, rows_commit, List.flatMap_cons, List.append_assoc]

/-- A version, once there, is not written again. -/
theorem Reached.next (h : Reached rt d F db₀ calls c) (hi : StoreInv rt db₀)
    {e : CommitEvent Db Write ι} (he : e ∈ c.log) {o : OperationalRecord}
    (ho : Write.addRow (.operational o) ∈ e.rows) {scope : Scope} (hin : o.inScope scope = true) :
    o.version = currentVersion (latestOperational e.before scope o.entityKind o.entityId) + 1 := by
  have hne : e.rows ≠ [] := List.ne_nil_of_mem ho
  obtain ⟨_, _, hc⟩ := h.inv.commit_once (index_lawful d) he hne
  have hib : StoreInv rt e.before := hi.env (h.inv.logFrom e he)
  obtain ⟨ht, hw⟩ := inScope_ids hin
  have hg := versions_grounded hib scope o.entityKind o.entityId
  -- the version is new, by the unique index over the versions of an entity
  have hnew : o.version - 1 + 1 ∉ versionsOf e.before scope o.entityKind o.entityId := by
    intro hv
    obtain ⟨p, hp, hpv⟩ := List.mem_map.mp hv
    have hkey := entityVersion_key hp
    have hmem := (mem_entityVersions.mp hp).1
    refine (h.inv.logOk e he).2.unused (Key.entityVersion scope.tenantId.text scope.workspaceId.text
      o.entityKind o.entityId p.version) (List.mem_flatMap.mpr ⟨_, ho, ?_⟩)
      (keys_of_row (k := .operational) (List.mem_map.mpr ⟨p, hmem, rfl⟩) hkey)
    have hpv' : p.version = o.version := by
      rw [hpv]
      omega
    simp [Write.keys, Row.keys, Row.ownKeys, ht, hw, hpv']
  -- and it follows one that is there
  have hold : o.version - 1 = 0 ∨
      o.version - 1 ∈ versionsOf e.before scope o.entityKind o.entityId := by
    rcases hc.follows ho with h1 | ⟨p, hp, hscope, hk, hid, hv⟩
    · exact .inl (by omega)
    · refine .inr (List.mem_map.mpr ⟨p, mem_entityVersions.mpr ⟨hp, ?_, hk, hid⟩, by omega⟩)
      simp [AppendOnlyMixin.inScope, hscope.1, hscope.2, ht, hw]
  have hlast := hg.next hold hnew
  rw [currentVersion_eq hib]
  omega

/-- **No update is lost**: whatever the interleaving of the calls, from any
state that the store can be in. -/
theorem no_lost_update (setup : List Issued) (calls : ι → StoreCall) {c : StoreConfig ι}
    (h : Reached rt d F (runCalls rt d Db.empty setup) calls c) :
    NoLostUpdate d (runCalls rt d Db.empty setup) calls c := by
  have hi : StoreInv rt (runCalls rt d Db.empty setup) := storeInv_run setup (storeInv_empty rt)
  constructor
  · intro scope kind id
    exact (versions_grounded (h.storeInv hi) scope kind id).perm
  · intro o ho
    have hrow : Row.operational o ∈ c.db.rows .operational := List.mem_map.mpr ⟨o, ho, rfl⟩
    rw [h.inv.logReplay, rows_replay] at hrow
    rcases List.mem_append.mp hrow with hrow | hrow
    · obtain ⟨o', ho', he⟩ := List.mem_map.mp hrow
      exact .inl (Row.operational.inj he ▸ ho')
    · obtain ⟨e, he, hrow⟩ := List.mem_flatMap.mp hrow
      obtain ⟨r, hr, hstored⟩ := List.mem_map.mp hrow
      obtain ⟨hw, hk⟩ := mem_addedRows.mp hr
      cases r with
      | operational row =>
        refine .inr ⟨e, he, row, hw, hstored.symm, ?_⟩
        intro x hx
        have hnone := (h.inv.raised_once hx).2
        have hmem := mem_commitsOf he
        rw [hnone] at hmem
        cases hmem
      | _ => cases hk
  · refine h.inv.keys_apart.imp ?_
    rintro e e' hapart a b ha hb ⟨hscope, hk, hid, hv⟩
    refine hapart (Key.entityVersion a.tenantId a.workspaceId a.entityKind a.entityId a.version)
      (List.mem_flatMap.mpr ⟨_, ha, ?_⟩) (List.mem_flatMap.mpr ⟨_, hb, ?_⟩)
    · simp [Write.keys, Row.keys, Row.ownKeys]
    · simp [Write.keys, Row.keys, Row.ownKeys, hscope.1, hscope.2, hk, hid, hv]
  · intro e he o ho scope hin
    exact h.next hi he ho hin
  · intro i scope draft v result hop hp
    have hout := h.inv.returned hp
    generalize hdone : commitsOf c.log i = done at hout
    cases hout with
    | replayed hrep _ =>
      unfold StoreCall.Replays at hrep
      unfold StoreOp.expects at hop
      split at hop
      · next heq => rw [heq] at hrep; exact hrep.elim
      · next heq => rw [heq] at hrep; exact hrep.elim
      · cases hop
    | @committed _ before rows _ hc _ _ =>
      obtain ⟨row, hres, hrows, hin, hk, hid, hv⟩ := StoreCall.Commits.expects hc hop
      have hmem : (before, rows) ∈ commitsOf c.log i := by rw [hdone]; exact List.mem_cons_self
      unfold commitsOf at hmem
      obtain ⟨e, he, heq⟩ := List.mem_map.mp hmem
      obtain ⟨hlog, hwho⟩ := List.mem_filter.mp he
      cases heq
      refine ⟨e, hlog, by simpa using hwho, rfl, row, hres, hrows, hin, hk, hid, hv, ?_⟩
      have hw : Write.addRow (.operational row) ∈ e.rows := by
        refine (mem_addedRows (k := .operational)).mp ?_ |>.1
        rw [hrows]
        exact List.mem_cons_self
      have hnext := h.next hi hlog hw hin
      rw [hk, hid] at hnext
      omega
  · intro i x hp
    exact (h.inv.raised_once hp).2

end Lost

/-! ## §4. Two writers of one entity. -/

/-- Two calls that both expect to write the first version. -/
def sampleWriters : Bool → StoreCall
  | false => (Issued.plain (.upsertOperational sampleScope
      (sampleIncident sampleInstant.stamp) (some 0) none) "c").call
  | true => (Issued.plain (.upsertOperational sampleScope
      (sampleIncident sampleInstant.stamp) (some 0) none) "e").call

/-- One of them writes it. -/
theorem sampleWriters_reach : ∃ c : StoreConfig Bool,
    Reached .ascii .sqlite noFault (runCalls .ascii .sqlite Db.empty sampleSetup) sampleWriters c ∧
      ∃ result, (c.calls false).prog = .ret result :=
  reach_returned index false (by decide +kernel)

theorem no_lost_update_sample : ∃ c : StoreConfig Bool,
    (∃ result, (c.calls false).prog = .ret result) ∧
      NoLostUpdate .sqlite (runCalls .ascii .sqlite Db.empty sampleSetup) sampleWriters c := by
  obtain ⟨c, hreach, hret⟩ := sampleWriters_reach
  exact ⟨c, hret, no_lost_update sampleSetup sampleWriters hreach⟩

end Lyte
