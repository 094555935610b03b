import Lyte.Persistence.Provisioning

/-
  Lyte.Persistence.Frame — what a commit changes, and what it leaves alone.

  Rows are only ever appended (`Grows`), a head only moves by an UPDATE of its
  own row, and whoever holds the lock of a head finds both the head and its
  stream as they were (`env_head`, `env_stream`).
-/

namespace Lyte

open Transact

/-! ## §1. Rows. -/

/-- The row a statement appends. -/
def Write.row? : Write → Option Row
  | .addRow r => some r
  | _ => none

/-- The rows that statements append to one table. -/
def addedRows (ws : List Write) (k : StreamKind) : List Row :=
  (ws.filterMap Write.row?).filter (fun r => r.stream = k)

@[simp] theorem addedRows_nil (k : StreamKind) : addedRows [] k = [] := rfl

theorem addedRows_append (p q : List Write) (k : StreamKind) :
    addedRows (p ++ q) k = addedRows p k ++ addedRows q k := by
  simp [addedRows]

theorem rows_write (db : Db) (w : Write) (k : StreamKind) :
    (db.write w).rows k = db.rows k ++ addedRows [w] k := by
  cases w with
  | addRow r =>
    rw [write_addRow, rows_addRow]
    by_cases h : r.stream = k <;> simp [addedRows, Write.row?, h]
  | _ => simp [addedRows, Write.row?]

/-- **The rows of a table after some writes.** -/
theorem rows_foldl (ws : List Write) (db : Db) (k : StreamKind) :
    (ws.foldl Db.write db).rows k = db.rows k ++ addedRows ws k := by
  induction ws generalizing db with
  | nil => simp
  | cons w ws ih =>
    rw [List.foldl_cons, ih, rows_write, List.append_assoc, ← addedRows_append]
    rfl

theorem addedRows_stored (d : Dialect) (ws : List Write) (k : StreamKind) :
    addedRows (ws.map (Write.stored d)) k = (addedRows ws k).map (Row.stored d) := by
  induction ws with
  | nil => rfl
  | cons w ws ih =>
    have hw : addedRows [w.stored d] k = (addedRows [w] k).map (Row.stored d) := by
      cases w with
      | addRow r => by_cases h : r.stream = k <;> simp [addedRows, Write.row?, Write.stored, h]
      | _ => rfl
    rw [List.map_cons, ← List.singleton_append, addedRows_append, hw, ih, ← List.map_append,
      ← addedRows_append, List.singleton_append]

theorem rows_view (d : Dialect) (db : Db) (ws : List Write) (k : StreamKind) :
    ((engine d).view db ws).rows k = db.rows k ++ addedRows ws k := rows_foldl ws db k

theorem rows_commit (d : Dialect) (db : Db) (ws : List Write) (k : StreamKind) :
    ((engine d).commit db ws).rows k = db.rows k ++ (addedRows ws k).map (Row.stored d) := by
  rw [Engine.commit, engine_write, engine_stored, rows_foldl, addedRows_stored]

theorem stored_inScope (d : Dialect) (m : AppendOnlyMixin) (scope : Scope) :
    (m.stored d).inScope scope = m.inScope scope := rfl

/-- The rows of one stream after a commit. -/
theorem stream_commit (d : Dialect) (db : Db) (ws : List Write) (scope : Scope) (k : StreamKind) :
    ((engine d).commit db ws).stream scope k
      = db.stream scope k ++
        ((addedRows ws k).filter (fun r => r.mixin.inScope scope)).map (Row.stored d) := by
  simp only [Db.stream, rows_commit, List.filter_append, List.filter_map]
  congr 2
  refine List.filter_congr fun r _ => ?_
  simp [stored_inScope]

/-! ## §2. Growth. -/

/-- Nothing was removed or changed but the heads. -/
structure Grows (db db' : Db) : Prop where
  tenants : db.tenants <+: db'.tenants
  workspaces : db.workspaces <+: db'.workspaces
  receipts : db.receipts <+: db'.receipts
  idempotency : db.idempotency <+: db'.idempotency
  memory : db.memory <+: db'.memory
  anatomy : db.anatomy <+: db'.anatomy
  operational : db.operational <+: db'.operational

theorem Grows.refl (db : Db) : Grows db db := by
  constructor <;> exact List.prefix_refl _

theorem Grows.trans {a b c : Db} (h : Grows a b) (h' : Grows b c) : Grows a c where
  tenants := h.tenants.trans h'.tenants
  workspaces := h.workspaces.trans h'.workspaces
  receipts := h.receipts.trans h'.receipts
  idempotency := h.idempotency.trans h'.idempotency
  memory := h.memory.trans h'.memory
  anatomy := h.anatomy.trans h'.anatomy
  operational := h.operational.trans h'.operational

theorem write_grows (db : Db) (w : Write) : Grows db (db.write w) := by
  cases w with
  | addRow r => cases r <;> constructor <;> simp [Db.write, Db.addRow]
  | _ => constructor <;> simp [Db.write]

theorem foldl_grows (ws : List Write) (db : Db) : Grows db (ws.foldl Db.write db) := by
  induction ws generalizing db with
  | nil => exact Grows.refl db
  | cons w ws ih => exact (write_grows db w).trans (ih _)

theorem commit_grows (d : Dialect) (db : Db) (ws : List Write) :
    Grows db ((engine d).commit db ws) := foldl_grows _ db

theorem view_grows (d : Dialect) (db : Db) (ws : List Write) :
    Grows db ((engine d).view db ws) := foldl_grows _ db

theorem Grows.rows {db db' : Db} (h : Grows db db') (k : StreamKind) : db.rows k <+: db'.rows k := by
  cases k
  · exact h.receipts.map _
  · exact h.idempotency.map _
  · exact h.memory.map _
  · exact h.anatomy.map _
  · exact h.operational.map _

section Environment

variable {G : Db → List Write → Prop} {d : Dialect} {held : List RowLock} {db db' : Db}

/-- Whatever others commit, the tables grow. -/
theorem env_grows (h : Env (engine d) index G held db db') : Grows db db' := by
  induction h with
  | refl => exact Grows.refl _
  | commit _ _ _ _ ih => exact ih.trans (commit_grows d _ _)

/-- An index entry, once there, stays. -/
theorem env_keys {k : Key} (h : Env (engine d) index G held db db') (hk : k ∈ db.keys) :
    k ∈ db'.keys := by
  induction h with
  | refl => exact hk
  | commit _ _ _ _ ih => exact (used_commit (index_lawful d) _ _ k).mpr (.inl ih)

end Environment

/-- The workspace of a scope exists. -/
def HasWorkspace (db : Db) (scope : Scope) : Prop :=
  ∃ w ∈ db.workspaces, w.tenantId = scope.tenantId.text ∧ w.id = scope.workspaceId.text

theorem HasWorkspace.grows {db db' : Db} {scope : Scope} (h : HasWorkspace db scope)
    (hg : Grows db db') : HasWorkspace db' scope := by
  obtain ⟨w, hw, hs⟩ := h
  exact ⟨w, hg.workspaces.subset hw, hs⟩

/-! ## §3. Heads. -/

/-- The head is that of the named stream. -/
def StreamHeadRecord.names (h : StreamHeadRecord) (tenantId workspaceId streamKind : PyStr) : Bool :=
  h.tenantId == tenantId && h.workspaceId == workspaceId && h.streamKind == streamKind

theorem head?_eq_find (db : Db) (t w k : PyStr) :
    db.head? t w k = db.heads.find? (fun h => h.names t w k) := rfl

theorem names_sameKey {x h : StreamHeadRecord} {t w k : PyStr} (hh : h.names t w k = true) :
    x.sameKey h = x.names t w k := by
  simp only [StreamHeadRecord.names, Bool.and_eq_true, beq_iff_eq] at hh
  simp [StreamHeadRecord.sameKey, StreamHeadRecord.names, hh.1.1, hh.1.2, hh.2]

theorem names_of_sameKey {x h : StreamHeadRecord} (hs : x.sameKey h = true) (t w k : PyStr) :
    x.names t w k = h.names t w k := by
  simp only [StreamHeadRecord.sameKey, Bool.and_eq_true, beq_iff_eq] at hs
  simp [StreamHeadRecord.names, hs.1.1, hs.1.2, hs.2]

theorem find_updateHead (heads : List StreamHeadRecord) (h : StreamHeadRecord) (t w k : PyStr) :
    (heads.map (fun x => if x.sameKey h then h else x)).find? (fun x => x.names t w k)
      = if h.names t w k then (heads.find? (fun x => x.names t w k)).map (fun _ => h)
        else heads.find? (fun x => x.names t w k) := by
  induction heads with
  | nil => simp
  | cons x xs ih =>
    rw [List.map_cons, List.find?_cons, List.find?_cons, ih]
    cases hh : h.names t w k with
    | true =>
      rw [names_sameKey hh]
      cases hx : x.names t w k with
      | true => simp [hh]
      | false => simp [hx]
    | false =>
      cases hs : x.sameKey h with
      | true =>
        have hx : x.names t w k = false := by rw [names_of_sameKey hs, hh]
        simp [hh, hx]
      | false => simp

/-- Whether a statement moves the named head. -/
def Write.moves (t w k : PyStr) : Write → Bool
  | .updateHead h => h.names t w k
  | _ => false

/-- A head that is there stays as it is under writes that do not move it. -/
theorem head?_write_of_not_moves {db : Db} {w : Write} {t ws k : PyStr} {h : StreamHeadRecord}
    (hh : db.head? t ws k = some h) (hm : w.moves t ws k = false) :
    (db.write w).head? t ws k = some h := by
  rw [head?_eq_find] at hh ⊢
  cases w with
  | addRow r => simpa using hh
  | addTenant r => exact hh
  | addWorkspace r => exact hh
  | addHead x => simp only [Db.write, List.find?_append, hh, Option.some_or]
  | updateHead x =>
    simp only [Write.moves] at hm
    simp only [Db.write, find_updateHead, hm, Bool.false_eq_true, if_false, hh]

theorem head?_foldl_of_not_moves {ws : List Write} {db : Db} {t w k : PyStr}
    {h : StreamHeadRecord} (hh : db.head? t w k = some h)
    (hm : ∀ x ∈ ws, x.moves t w k = false) : (ws.foldl Db.write db).head? t w k = some h := by
  induction ws generalizing db with
  | nil => exact hh
  | cons x ws ih =>
    exact ih (head?_write_of_not_moves hh (hm x (by simp))) (fun y hy => hm y (by simp [hy]))

/-- An UPDATE puts the named head where it says. -/
theorem head?_updateHead {db : Db} {t w k : PyStr} {h h' : StreamHeadRecord}
    (hh : db.head? t w k = some h) (hn : h'.names t w k = true) :
    (db.write (.updateHead h')).head? t w k = some h' := by
  rw [head?_eq_find] at hh ⊢
  simp only [Db.write, find_updateHead, hn, if_true, hh, Option.map_some]

@[simp] theorem stored_moves (d : Dialect) (x : Write) (t w k : PyStr) :
    (x.stored d).moves t w k = x.moves t w k := by
  cases x <;> rfl

theorem head?_commit_of_not_moves {d : Dialect} {ws : List Write} {db : Db} {t w k : PyStr}
    {h : StreamHeadRecord} (hh : db.head? t w k = some h)
    (hm : ∀ x ∈ ws, x.moves t w k = false) :
    ((engine d).commit db ws).head? t w k = some h := by
  refine head?_foldl_of_not_moves hh fun x hx => ?_
  obtain ⟨y, hy, rfl⟩ := List.mem_map.mp hx
  simp [hm y hy]

theorem names_of_head? {db : Db} {t w k : PyStr} {h : StreamHeadRecord}
    (hh : db.head? t w k = some h) : h.names t w k = true := by
  rw [head?_eq_find] at hh
  simpa using List.find?_some hh

section Locked

variable {G : Db → List Write → Prop} {d : Dialect} {held : List RowLock} {db db' : Db}
variable {scope : Scope} {k : StreamKind}

theorem moves_guard {x : Write} (hm : x.moves scope.tenantId.text scope.workspaceId.text k.value
    = true) : x.guard = some (headLock scope k) := by
  cases x with
  | updateHead h =>
    simp only [Write.moves, StreamHeadRecord.names, Bool.and_eq_true, beq_iff_eq] at hm
    simp [Write.guard, headLock, hm.1.1, hm.1.2, hm.2]
  | _ => cases hm

/-- **A locked head stays where it is.** -/
theorem env_head {h : StreamHeadRecord} (henv : Env (engine d) index G held db db')
    (hl : headLock scope k ∈ held) (hh : headOf db scope k = some h) :
    headOf db' scope k = some h := by
  induction henv with
  | refl => exact hh
  | commit _ _ _ hguard ih =>
    refine head?_commit_of_not_moves ih fun x hx => ?_
    cases hm : x.moves scope.tenantId.text scope.workspaceId.text k.value with
    | false => rfl
    | true => exact absurd hl (hguard x hx _ (moves_guard hm))

/-- A row that belongs to a stream is written under the lock of its head. -/
theorem addRow_guard {r : Row} (hr : r.mixin.inScope scope = true) (hk : r.stream = k) :
    (Write.addRow r).guard = some (headLock scope k) := by
  simp only [AppendOnlyMixin.inScope, Bool.and_eq_true, beq_iff_eq] at hr
  simp [Write.guard, headLock, hr.1, hr.2, hk]

theorem mem_addedRows {r : Row} {ws : List Write} :
    r ∈ addedRows ws k ↔ Write.addRow r ∈ ws ∧ r.stream = k := by
  simp only [addedRows, List.mem_filter, List.mem_filterMap, decide_eq_true_eq]
  constructor
  · rintro ⟨⟨x, hx, hr⟩, hk⟩
    cases x with
    | addRow r' =>
      simp only [Write.row?, Option.some.injEq] at hr
      exact ⟨hr ▸ hx, hk⟩
    | _ => cases hr
  · rintro ⟨hx, hk⟩
    exact ⟨⟨_, hx, rfl⟩, hk⟩

/-- **The stream behind a locked head stays as it is.** -/
theorem env_stream (henv : Env (engine d) index G held db db') (hl : headLock scope k ∈ held) :
    db'.stream scope k = db.stream scope k := by
  induction henv with
  | refl => rfl
  | @commit _ rows _ _ _ hguard ih =>
    have hnone : (addedRows rows k).filter (fun r => r.mixin.inScope scope) = [] := by
      rw [List.filter_eq_nil_iff]
      intro r hr hs
      obtain ⟨hx, hk⟩ := mem_addedRows.mp hr
      exact hguard _ hx _ (addRow_guard hs hk) hl
    rw [stream_commit, hnone, ih, List.map_nil, List.append_nil]

end Locked

/-! ## §4. Statements that all operations share. -/

section Statements

variable {β : Type} {F : Exn → Prop} {G : Db → List Write → Prop} {d : Dialect}
variable {R : β → Db → List Write → List RowLock → Prop} {X : Exn → Db → Prop}
variable {db : Db} {held : List RowLock}

/-- `_assert_scope` at the start of a transaction. -/
theorem sat_assertScope {scope : Scope} {R : Unit → Db → List Write → List RowLock → Prop}
    (h : ∀ db', Env (engine d) index G held db db' → HasWorkspace db' scope → R () db' [] held)
    (hmissing : ∀ db', X (.scopeNotFound
      (py "workspace does not exist in the requested tenant")) db')
    (hX : ∀ e, F e → ∀ db', X e db') :
    (assertScope scope).Sat (engine d) index F G R X db [] held := by
  refine Body.sat_bind (Body.sat_select (fun db' henv => ?_) (fun e he db' _ => hX e he db'))
  rw [Engine.view_nil]
  cases hw : db'.workspaces.find? (fun w => w.id == scope.workspaceId.text) with
  | none => exact hmissing db'
  | some w =>
    by_cases ht : (w.tenantId == scope.tenantId.text) = true
    · rw [Option.any_some, if_pos ht]
      exact h db' henv ⟨w, List.mem_of_find?_eq_some hw, by simpa using ht,
        by simpa using List.find?_some hw⟩
    · rw [Option.any_some, if_neg ht]
      exact hmissing db'

/-- `_locked_head`, where an exception may tell of the rows it leaves. -/
theorem sat_lockedHead_env {scope : Scope} {k : StreamKind} {pending : List Write}
    {R : StreamHeadRecord → Db → List Write → List RowLock → Prop}
    (h : ∀ db' head, Env (engine d) index G held db db' →
      headOf ((engine d).view db' pending) scope k = some head →
      R head db' pending (headLock scope k :: held))
    (hmissing : ∀ db', Env (engine d) index G held db db' → X (.scopeNotFound
      (py "workspace stream heads have not been initialized")) db')
    (hX : ∀ e, F e → ∀ db', Env (engine d) index G held db db' → X e db') :
    (lockedHead scope k).Sat (engine d) index F G R X db pending held := by
  refine Body.sat_bind (Body.sat_selectForUpdate (fun db' henv => ?_) hX)
  cases hh : headOf ((engine d).view db' pending) scope k with
  | none => exact hmissing db' henv
  | some head => exact h db' head henv hh

/-- `_locked_head`. -/
theorem sat_lockedHead_view {scope : Scope} {k : StreamKind} {pending : List Write}
    {R : StreamHeadRecord → Db → List Write → List RowLock → Prop}
    (h : ∀ db' head, Env (engine d) index G held db db' →
      headOf ((engine d).view db' pending) scope k = some head →
      R head db' pending (headLock scope k :: held))
    (hmissing : ∀ db', X (.scopeNotFound
      (py "workspace stream heads have not been initialized")) db')
    (hX : ∀ e, F e → ∀ db', X e db') :
    (lockedHead scope k).Sat (engine d) index F G R X db pending held :=
  sat_lockedHead_env h (fun db' _ => hmissing db') (fun e he db' _ => hX e he db')

/-- `_locked_head` before anything was written. -/
theorem sat_lockedHead {scope : Scope} {k : StreamKind}
    {R : StreamHeadRecord → Db → List Write → List RowLock → Prop}
    (h : ∀ db' head, Env (engine d) index G held db db' → headOf db' scope k = some head →
      R head db' [] (headLock scope k :: held))
    (hmissing : ∀ db', X (.scopeNotFound
      (py "workspace stream heads have not been initialized")) db')
    (hX : ∀ e, F e → ∀ db', X e db') :
    (lockedHead scope k).Sat (engine d) index F G R X db [] held :=
  sat_lockedHead_view h hmissing hX

end Statements

end Lyte
