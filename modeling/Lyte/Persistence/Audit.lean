import Lyte.Persistence.Agreement

/-
  Lyte.Persistence.Audit — what the preservation auditor accepts.

  The auditor walks all rows of a table in one pass and keeps a `Progress` for
  each scope.  `auditRows_ok` says that this is the same as walking the chain of
  each scope by itself, whatever the order between scopes.  With the invariant of
  the store and the rows of `Persistence/Agreement.lean` it accepts every
  database that calls with surviving timestamps can reach.
-/

namespace Lyte

open Transact HashChain

variable {rt : Runtime} {d : Dialect}

/-! ## §1. The order of the rows. -/

theorem auditLe_total (a b : Row) : auditLe a b = true ∨ auditLe b a = true := by
  unfold auditLe
  by_cases ht : a.mixin.tenantId = b.mixin.tenantId
  · by_cases hw : a.mixin.workspaceId = b.mixin.workspaceId
    · simp only [ht, hw, ne_eq, not_true_eq_false, if_false, decide_eq_true_eq]
      omega
    · simp only [ht, hw, Ne.symm hw, ne_eq, not_true_eq_false, not_false_eq_true, if_false,
        if_true]
      exact strLe_total _ _
  · simp only [ht, Ne.symm ht, ne_eq, not_false_eq_true, if_true]
    exact strLe_total _ _

theorem auditLe_trans {a b c : Row} (h : auditLe a b = true) (h' : auditLe b c = true) :
    auditLe a c = true := by
  unfold auditLe at *
  have := @strLe_antisymm
  have := @strLe_trans
  grind

instance : Std.Total (fun a b : Row => auditLe a b = true) := ⟨auditLe_total⟩
instance : IsTrans Row (fun a b : Row => auditLe a b = true) := ⟨fun _ _ _ => auditLe_trans⟩


/-- **In the auditor's order the rows of one scope are in the order of their
sequence numbers.** -/
theorem auditOrder_filter {rows : List Row} {s : PyStr × PyStr}
    (h : (rows.filter (fun r => r.key = s)).Pairwise
      (fun a b => a.mixin.sequence ≤ b.mixin.sequence)) :
    (auditOrder rows).filter (fun r => r.key = s) = rows.filter (fun r => r.key = s) := by
  have hle : (rows.filter (fun r => r.key = s)).Pairwise (fun a b => auditLe a b = true) := by
    refine h.imp_of_mem ?_
    intro a b ha hb hab
    have hka : a.key = s := by simpa using (List.mem_filter.mp ha).2
    have hkb : b.key = s := by simpa using (List.mem_filter.mp hb).2
    have hk : a.key = b.key := hka.trans hkb.symm
    simp only [Row.key, Prod.mk.injEq] at hk
    simp [auditLe, hk.1, hk.2, hab]
  have hsub : (rows.filter (fun r => r.key = s)).Sublist (auditOrder rows) :=
    List.sublist_insertionSort hle List.filter_sublist
  have hsub' := hsub.filter (fun r => r.key = s)
  rw [List.filter_filter] at hsub'
  simp only [Bool.and_self] at hsub'
  have hperm : (auditOrder rows).Perm rows := List.perm_insertionSort _ _
  exact (hsub'.eq_of_length (hperm.filter _).length_eq.symm).symm

/-! ## §2. The rows of one table. -/

/-- What the auditor needs of a row: the seal, and the projection. -/
structure Auditable (rt : Runtime) (k : StreamKind) (row : Row) : Prop where
  sealed : Sealed rt ⟨⟨row.mixin.tenantId⟩, ⟨row.mixin.workspaceId⟩⟩ k row.mixin
  faithful : Faithful rt row

/-- The next row of a scope is accepted. -/
theorem rowAccepted_ok {scopes : List (PyStr × PyStr)} {k : StreamKind} {n : Int}
    {p : Option PyStr} {row : Row} (hs : row.key ∈ scopes) (hn : row.mixin.sequence = n + 1)
    (hp : row.mixin.previousHash = p) (h : Auditable rt k row) :
    rowAccepted rt scopes n p row = .ok true := by
  obtain ⟨schema, createdAt, data, hb⟩ := h.sealed.binds
  have hself := pyEq_self_of_sha256Json rt h.faithful.nodup h.sealed.digest
  have hproj := h.faithful.projects
  have hdigest := h.sealed.digest
  unfold rowAccepted
  rw [if_neg (by simpa [hn, hp] using hs)]
  rw [hb] at hself hproj hdigest ⊢
  simp only [basisDict] at hself hproj hdigest ⊢
  simp [hproj, hself, hdigest, bind, Except.bind, pure, Except.pure]

/-- **One pass over all scopes is the pass over each of them.** -/
theorem auditRows_ok {scopes : List (PyStr × PyStr)} {k : StreamKind} {rows : List Row}
    {progress : Progress} (hs : ∀ r ∈ rows, r.key ∈ scopes) (ha : ∀ r ∈ rows, Auditable rt k r)
    (hchain : ∀ s, Chained rowLinks (fun _ => True) (progress s).1 (progress s).2
      ((rows.filter (fun r => r.key = s)).map Row.mixin)) :
    auditRows rt scopes rows progress = .ok (fun s =>
      tip rowLinks (progress s) ((rows.filter (fun r => r.key = s)).map Row.mixin)) := by
  induction rows generalizing progress with
  | nil => rfl
  | cons row rows ih =>
    have hself := hchain row.key
    rw [List.filter_cons_of_pos (by simp), List.map_cons] at hself
    obtain ⟨hn, hp, _, hrest⟩ := hself
    unfold auditRows
    have hacc := rowAccepted_ok (hs row List.mem_cons_self) hn hp (ha row List.mem_cons_self)
    show (do let accepted ← rowAccepted rt scopes (progress row.key).1 (progress row.key).2 row; _) = _
    rw [hacc]
    refine (ih (fun r hr => hs r (List.mem_cons_of_mem _ hr))
      (fun r hr => ha r (List.mem_cons_of_mem _ hr)) ?_).trans ?_
    · intro s
      by_cases he : s = row.key
      · subst he
        simpa using hrest
      · have hother := hchain s
        rw [List.filter_cons_of_neg (by simpa using Ne.symm he)] at hother
        simpa [he] using hother
    · congr 1
      funext s
      by_cases he : s = row.key
      · subst he
        have hseq : row.mixin.sequence = (progress row.key).1 + 1 := hn
        rw [List.filter_cons_of_pos (by simp), List.map_cons, tip_cons, rowLinks_index, hseq]
        simp
      · rw [List.filter_cons_of_neg (by simpa using Ne.symm he)]
        simp [he]

/-! ## §3. The database. -/

/-- All rows of a database are read back as they were written. -/
def AllFaithful (rt : Runtime) (db : Db) : Prop := ∀ k, ∀ r ∈ db.rows k, Faithful rt r

/-- The scope with the given ids. -/
def scopeOf (s : PyStr × PyStr) : Scope := ⟨⟨s.1⟩, ⟨s.2⟩⟩

theorem stream_scopeOf (db : Db) (s : PyStr × PyStr) (k : StreamKind) :
    db.stream (scopeOf s) k = (db.rows k).filter (fun r => r.key = s) := by
  rw [Db.stream]
  refine List.filter_congr ?_
  intro r _
  rw [Bool.eq_iff_iff]
  simp [AppendOnlyMixin.inScope, scopeOf, Row.key, Prod.ext_iff]

theorem hasWorkspace_scopeOf {db : Db} {s : PyStr × PyStr} (h : s ∈ db.scopes) :
    HasWorkspace db (scopeOf s) := by
  obtain ⟨w, hw, rfl⟩ := List.mem_map.mp h
  exact ⟨w, hw, rfl, rfl⟩

section Database

variable {db : Db}

theorem key_mem_scopes (hi : StoreInv rt db) {k : StreamKind} {r : Row} (hr : r ∈ db.rows k) :
    r.key ∈ db.scopes := by
  obtain ⟨w, hw, ht, hid⟩ := hi.inScope k r hr
  exact List.mem_map.mpr ⟨w, hw, Prod.ext ht hid⟩

/-- Every row is auditable. -/
theorem auditable_of_inv (hi : StoreInv rt db) (hf : AllFaithful rt db) {k : StreamKind} {r : Row}
    (hr : r ∈ db.rows k) : Auditable rt k r := by
  refine ⟨?_, hf k r hr⟩
  have hmem : r ∈ db.stream (scopeOf r.key) k := by
    rw [stream_scopeOf]
    exact List.mem_filter.mpr ⟨hr, by simp⟩
  have hchain := (hi.chains _ (hasWorkspace_scopeOf (key_mem_scopes hi hr)) k).chain
  exact chained_forall hchain _ (List.mem_map.mpr ⟨r, hmem, rfl⟩)

/-- The rows of one scope form a chain, also where the scope has no workspace. -/
theorem chain_of_key (hi : StoreInv rt db) (k : StreamKind) (s : PyStr × PyStr) :
    Chained rowLinks (fun _ => True) 0 none
      (((db.rows k).filter (fun r => r.key = s)).map Row.mixin) := by
  by_cases hs : s ∈ db.scopes
  · have hchain := (hi.chains _ (hasWorkspace_scopeOf hs) k).chain
    rw [stream_scopeOf] at hchain
    exact hchain.imp (fun _ _ => trivial)
  · have hnil : (db.rows k).filter (fun r => r.key = s) = [] := by
      rw [List.filter_eq_nil_iff]
      intro r hr hk
      have hk' : r.key = s := by simpa using hk
      exact hs (hk' ▸ key_mem_scopes hi hr)
    rw [hnil]
    trivial

/-- The audit of one table. -/
theorem auditStream_ok (hi : StoreInv rt db) (hf : AllFaithful rt db) (k : StreamKind) :
    auditStream rt db db.scopes k = .ok () := by
  have hperm : (auditOrder (db.rows k)).Perm (db.rows k) := List.perm_insertionSort _ _
  have horder : ∀ s, (auditOrder (db.rows k)).filter (fun r => r.key = s)
      = (db.rows k).filter (fun r => r.key = s) := by
    intro s
    refine auditOrder_filter ?_
    have hpair := (chained_pairwise (chain_of_key hi k s)).1
    rw [List.pairwise_map] at hpair
    refine hpair.imp ?_
    intro a b hab
    exact le_of_lt hab
  have hrows : auditRows rt db.scopes (auditOrder (db.rows k)) (fun _ => (0, none))
      = .ok (fun s => tip rowLinks (0, none) ((db.stream (scopeOf s) k).map Row.mixin)) := by
    rw [auditRows_ok (fun r hr => key_mem_scopes hi (hperm.mem_iff.mp hr))
      (fun r hr => auditable_of_inv hi hf (hperm.mem_iff.mp hr))
      (fun s => by rw [horder]; exact chain_of_key hi k s)]
    congr 1
    funext s
    rw [horder, stream_scopeOf]
  unfold auditStream
  rw [hrows]
  -- every head stands at the tip of its stream
  have hheads : ∀ l : List (PyStr × PyStr), (∀ s ∈ l, s ∈ db.scopes) →
      l.forM (auditHead db k (fun s =>
        tip rowLinks (0, none) ((db.stream (scopeOf s) k).map Row.mixin)))
        = (.ok () : Except Exn Unit) := by
    intro l hl
    induction l with
    | nil => rfl
    | cons s l ih =>
      obtain ⟨_, head, hh, htip⟩ := hi.chains _ (hasWorkspace_scopeOf (hl s List.mem_cons_self)) k
      have hrest := ih (fun s' hs' => hl s' (List.mem_cons_of_mem _ hs'))
      have hhead : auditHead db k (fun s =>
          tip rowLinks (0, none) ((db.stream (scopeOf s) k).map Row.mixin)) s = .ok () := by
        have hh' : db.head? s.1 s.2 k.value = some head := hh
        unfold auditHead
        rw [hh']
        simp only [← htip, ne_eq, not_true_eq_false, if_false]
        rfl
      unfold List.forM
      rw [hhead]
      exact hrest
  exact hheads db.scopes (fun _ hs => hs)

/-- The heads are exactly those of the streams of the workspaces. -/
theorem headSetMatches_of_inv (hi : StoreInv rt db) : headSetMatches db = true := by
  unfold headSetMatches
  rw [Bool.and_eq_true, List.all_eq_true, List.all_eq_true]
  constructor
  · intro h hh
    obtain ⟨⟨w, hw, ht, hid⟩, k, hk⟩ := hi.heads h hh
    rw [Bool.and_eq_true, List.contains_iff_mem, List.any_eq_true]
    exact ⟨List.mem_map.mpr ⟨w, hw, Prod.ext ht hid⟩, k, mem_streamKinds k, by simp [hk]⟩
  · intro s hs
    rw [List.all_eq_true]
    intro k _
    obtain ⟨_, head, hh, _⟩ := hi.chains _ (hasWorkspace_scopeOf hs) k
    have hh' : db.head? s.1 s.2 k.value = some head := hh
    rw [hh']
    rfl

/-- **The auditor accepts a database of faithful rows.** -/
theorem chains_ok (hi : StoreInv rt db) (hf : AllFaithful rt db) :
    chains rt db = .ok (db.scopes.eraseDups.length * streamKinds.length) := by
  unfold chains
  rw [headSetMatches_of_inv hi]
  simp [streamKinds, auditStream_ok hi hf, bind, Except.bind, pure, Except.pure]

end Database

/-! ## §4. Runs. -/

/-- The effects of calls whose datetimes survive. -/
def FaithfulEffect (rt : Runtime) (d : Dialect) (db : Db) (ws : List Write) : Prop :=
  Effect rt d db ws ∧ WritesFaithful rt d ws

theorem AllFaithful.env {held : List RowLock} {db db' : Db} (hf : AllFaithful rt db)
    (h : Env (engine d) index (FaithfulEffect rt d) held db db') : AllFaithful rt db' := by
  induction h with
  | refl => exact hf
  | commit _ hG _ _ ih =>
    intro k r hr
    rcases mem_rows_commit hr with hr | ⟨r', hw, _, rfl⟩
    · exact ih k r hr
    · exact hG.2 r' hw

theorem allFaithful_empty : AllFaithful rt Db.empty := by
  intro k
  cases k <;> simp [Db.rows, Db.empty]

/-- A run of calls whose datetimes survive. -/
theorem allFaithful_run (calls : List Issued)
    (ht : ∀ c ∈ calls, ∀ s ∈ c.call.op.timestamps, Survives d s) {db : Db}
    (hf : AllFaithful rt db) : AllFaithful rt (runCalls rt d db calls) := by
  induction calls generalizing db with
  | nil => exact hf
  | cons c calls ih =>
    rw [runCalls_cons]
    refine ih (fun c' hc' => ht c' (List.mem_cons_of_mem _ hc')) ?_
    obtain ⟨done, htrail, _⟩ := c.exec_outcome rt d (G := FaithfulEffect rt d) db
      (fun _ _ _ h hfresh => ⟨h.effect hfresh, h.faithful (ht c List.mem_cons_self)⟩)
      (fun _ => ⟨.nothing, by intro r hr; cases hr⟩)
    exact hf.env htrail.env

/-- **The auditor accepts every database that calls with surviving datetimes can
reach**, and projects every row to its stored basis. -/
theorem auditor_accepts_runs (calls : List Issued)
    (ht : ∀ c ∈ calls, ∀ s ∈ c.call.op.timestamps, Survives d s) :
    (∃ n, chains rt (runCalls rt d Db.empty calls) = .ok n) ∧
      ∀ k, ∀ row ∈ (runCalls rt d Db.empty calls).rows k,
        projection rt row = .ok row.mixin.basisJson := by
  have hi : StoreInv rt (runCalls rt d Db.empty calls) := storeInv_run calls (storeInv_empty rt)
  have hf : AllFaithful rt (runCalls rt d Db.empty calls) :=
    allFaithful_run calls ht allFaithful_empty
  exact ⟨⟨_, chains_ok hi hf⟩, fun k row hr => (hf k row hr).projects⟩

/-- All calls of a run return. -/
def allSucceed (rt : Runtime) (d : Dialect) : Db → List Issued → Bool
  | _, [] => true
  | db, c :: calls =>
      match c.exec rt d db with
      | (.ok _, db') => allSucceed rt d db' calls
      | (.error _, _) => false

/-- The workspace, and an operational record observed at the given time. -/
def observedRun (observedAt : Stamp) : List Issued :=
  sampleSetup ++ [.plain (.upsertOperational sampleScope (sampleIncident observedAt) none none) "c"]

/-- 2026-01-01T02:00:00+02:00. -/
def offsetStamp : Stamp := ⟨sampleInstant.micros + 7200000000, some 7200000000⟩

theorem auditor_accepts_runs_sample :
    (∃ n, chains .ascii (runCalls .ascii .sqlite Db.empty (observedRun sampleInstant.stamp)) = .ok n) ∧
      ∀ k, ∀ row ∈ (runCalls .ascii .sqlite Db.empty (observedRun sampleInstant.stamp)).rows k,
        projection .ascii row = .ok row.mixin.basisJson := by
  refine auditor_accepts_runs (observedRun sampleInstant.stamp) ?_
  intro c hc s hs
  simp only [observedRun, sampleSetup, List.mem_append, List.mem_cons, List.not_mem_nil, or_false] at hc
  rcases hc with (rfl | rfl) | rfl
  · cases hs
  · cases hs
  · simp [Issued.plain, StoreOp.timestamps, sampleIncident] at hs
    rw [hs]
    exact survives_instant _

theorem observedRun_succeeds : allSucceed .ascii .sqlite Db.empty (observedRun offsetStamp) = true := by
  decide +kernel

theorem observedRun_refused :
    (chains .ascii (runCalls .ascii .sqlite Db.empty (observedRun offsetStamp))).toOption = none := by
  decide +kernel

/-- A record observed at another offset is refused. -/
theorem auditor_refuses_offset :
    ¬ ∀ (rt : Runtime) (calls : List Issued), allSucceed rt .sqlite Db.empty calls = true →
      (∃ n, chains rt (runCalls rt .sqlite Db.empty calls) = .ok n) ∧
        ∀ k, ∀ row ∈ (runCalls rt .sqlite Db.empty calls).rows k,
          projection rt row = .ok row.mixin.basisJson := by
  intro h
  obtain ⟨⟨n, hn⟩, _⟩ := h .ascii (observedRun offsetStamp) observedRun_succeeds
  have hnone := observedRun_refused
  rw [hn] at hnone
  cases hnone

end Lyte
