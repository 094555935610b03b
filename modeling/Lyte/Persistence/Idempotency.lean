import Lyte.Persistence.Runs

/-
  Lyte.Persistence.Idempotency — keyed calls, any number of them at once.

  `append_receipt` and `append_analysis_bundle` share the key table and re-check
  it at different moments: before the head locks, behind them (only the bundle),
  and again after an IntegrityError.  Whatever the interleaving, the unique key
  index lets one call through, and everyone else reads what that call wrote:
  `idempotent_calls` says so of every reachable configuration.
-/

namespace Lyte

open Transact HashChain

variable {rt : Runtime} {d : Dialect} {F : Exn → Prop}

/-! ## §1. Calls at once. -/

section Concurrent

variable {ι : Type} [DecidableEq ι] {db₀ : Db} {calls : ι → StoreCall}

/-- Calls of the store in progress. -/
abbrev StoreConfig (ι : Type) := Config Db Write RowLock Exn StoreResult ι

/-- What calls that start together on the committed rows `db₀` can reach, one
statement of one call at a time. -/
abbrev Reached (rt : Runtime) (d : Dialect) (F : Exn → Prop) (db₀ : Db) (calls : ι → StoreCall)
    (c : StoreConfig ι) : Prop :=
  Reach (engine d) index F (.start db₀ (fun i => (calls i).prog rt d)) c

/-- The invariant of everything that they reach. -/
abbrev CallsInv (rt : Runtime) (d : Dialect) (F : Exn → Prop) (db₀ : Db) (calls : ι → StoreCall)
    (c : StoreConfig ι) : Prop :=
  Inv (engine d) index F (Effect rt d) (fun i => Outcome (engine d) index (Effect rt d)
    ((calls i).Commits rt) ((calls i).Replays rt) ((calls i).Fails F)) db₀ c

theorem Reached.inv {c : StoreConfig ι} (h : Reached rt d F db₀ calls c) :
    CallsInv rt d F db₀ calls c := by
  refine reach_inv (index_lawful d) ?_ h
  intro i
  exact (calls i).sat db₀ (fun _ _ _ hc hf => hc.effect hf) (fun _ => .nothing)

/-- **Concurrent calls keep the invariant of the store.** -/
theorem Reached.storeInv {c : StoreConfig ι} (h : Reached rt d F db₀ calls c)
    (hi : StoreInv rt db₀) : StoreInv rt c.db :=
  hi.env h.inv.path

end Concurrent

/-! ## §2. Rows that a key determines. -/

/-- In a table with a unique index, a key determines the row. -/
theorem row_unique {db : Db} (hi : StoreInv rt db) {k : StreamKind} {a b : Row}
    (ha : a ∈ db.rows k) (hb : b ∈ db.rows k) {x : Key} (hx : x ∈ a.keys) (hx' : x ∈ b.keys) :
    a = b := by
  by_contra hne
  have hsymm : Std.Symm (fun a b : Row => ∀ x ∈ a.keys, x ∉ b.keys) := by
    constructor
    intro a b h x hb ha
    exact h x ha hb
  exact (hi.unique k).forall ha hb hne x hx hx'

theorem inScope_ids {m : AppendOnlyMixin} {scope : Scope} (h : m.inScope scope = true) :
    m.tenantId = scope.tenantId.text ∧ m.workspaceId = scope.workspaceId.text := by
  simpa [AppendOnlyMixin.inScope] using h

theorem keyRecord_unique {db : Db} (hi : StoreInv rt db) {scope : Scope} {a b : IdempotencyRecord}
    (ha : a ∈ db.idempotency) (hb : b ∈ db.idempotency) (hsa : a.inScope scope = true)
    (hsb : b.inScope scope = true) (hk : a.keyDigest = b.keyDigest) : a = b := by
  obtain ⟨hat, haw⟩ := inScope_ids hsa
  obtain ⟨hbt, hbw⟩ := inScope_ids hsb
  have hrow := row_unique hi (k := .idempotency) (a := .idempotency a) (b := .idempotency b)
    (List.mem_map.mpr ⟨a, ha, rfl⟩) (List.mem_map.mpr ⟨b, hb, rfl⟩)
    (x := .idempotencyKey scope.tenantId.text scope.workspaceId.text a.keyDigest)
    (by simp [Row.keys, Row.ownKeys, hat, haw]) (by simp [Row.keys, Row.ownKeys, hbt, hbw, hk])
  exact Row.idempotency.inj hrow

theorem receipt_unique {db : Db} (hi : StoreInv rt db) {scope : Scope} {a b : ReceiptRecord}
    (ha : a ∈ db.receipts) (hb : b ∈ db.receipts) (hsa : a.inScope scope = true)
    (hsb : b.inScope scope = true) (hh : a.recordHash = b.recordHash) : a = b := by
  obtain ⟨hat, haw⟩ := inScope_ids hsa
  obtain ⟨hbt, hbw⟩ := inScope_ids hsb
  have hrow := row_unique hi (k := .receipts) (a := .receipt a) (b := .receipt b)
    (List.mem_map.mpr ⟨a, ha, rfl⟩) (List.mem_map.mpr ⟨b, hb, rfl⟩)
    (x := .rowHash .receipts scope.tenantId.text scope.workspaceId.text a.recordHash)
    (by simp [Row.keys, hat, haw]) (by simp [Row.keys, hbt, hbw, hh])
  exact Row.receipt.inj hrow

/-- A committed row is in its table, as the columns give it back. -/
theorem mem_rows_of_commit (db : Db) {ws : List Write} {r : Row} (h : Write.addRow r ∈ ws) :
    r.stored d ∈ ((engine d).commit db ws).rows r.stream := by
  rw [rows_commit]
  refine List.mem_append_right _ (List.mem_map.mpr ⟨r, ?_, rfl⟩)
  exact mem_addedRows.mpr ⟨h, rfl⟩

/-- It stays there. -/
theorem stored_row_mem {G : Db → List Write → Prop} {db db' : Db} {ws : List Write} {r : Row}
    (hr : Write.addRow r ∈ ws)
    (henv : Env (engine d) index G [] ((engine d).commit db ws) db') :
    r.stored d ∈ db'.rows r.stream :=
  ((env_grows henv).rows r.stream).subset (mem_rows_of_commit db hr)

/-! ## §3. Keyed calls. -/

/-- The scope and the key that a call carries. -/
def StoreOp.key : StoreOp → Option (Scope × PyStr)
  | .appendReceipt scope _ (some key) _ => some (scope, key)
  | .appendAnalysisBundle scope _ _ _ key _ _ => some (scope, key)
  | _ => none

/-- The digest that its request is compared by. -/
def StoreOp.requestDigest (rt : Runtime) : StoreOp → PyStr
  | .appendReceipt _ draft _ _ => requestDigestOf rt draft
  | .appendAnalysisBundle _ _ _ _ _ requestDigest _ => requestDigest
  | _ => []

/-- The receipt that a call returned. -/
def StoreResult.receipt? : StoreResult → Option ReceiptRecord
  | .receipt r => some r
  | .bundle b => some b.receipt
  | _ => none

/-- A record of the key table that stands for a key. -/
def IsKeyRecord (rt : Runtime) (scope : Scope) (key : PyStr) (record : IdempotencyRecord) : Prop :=
  record.inScope scope = true ∧ record.keyDigest = bundleKeyOf rt scope key

/-- Both operations digest a key alike. -/
theorem keyDigestOf_some (hsha : ∀ bytes, rt.sha256 bytes ≠ []) {scope : Scope} {key : PyStr}
    (h : KeyOk rt scope (some key)) :
    keyDigestOf rt scope (some key) = some (bundleKeyOf rt scope key) := by
  obtain ⟨kd, hkd⟩ := h key rfl
  have hne : kd ≠ [] := by
    unfold idempotencyDigest at hkd
    obtain ⟨_, hkd⟩ := ok_of_guard hkd
    unfold sha256Text at hkd
    split at hkd
    · cases hkd
      exact hsha _
    · cases hkd
  unfold keyDigestOf bundleKeyOf
  simp only [hkd]
  simp [hne]

theorem keyDigestOf_eq {scope : Scope} {key kd : PyStr}
    (h : some kd = keyDigestOf rt scope (some key)) : kd = bundleKeyOf rt scope key := by
  unfold keyDigestOf at h
  unfold bundleKeyOf
  cases hx : idempotencyDigest rt scope key with
  | error e =>
    simp only [hx] at h
    cases h
  | ok kd' =>
    simp only [hx] at h
    split at h
    · cases h
    · exact Option.some.inj h

/-- The key record and the receipt among the rows of a keyed call, and the
receipt that the call returns. -/
structure KeyedRows (rt : Runtime) (c : StoreCall) (scope : Scope) (key : PyStr) (ws : List Write)
    (result : StoreResult) (record : IdempotencyRecord) (written receipt : ReceiptRecord) :
    Prop where
  record_mem : Write.addRow (.idempotency record) ∈ ws
  written_mem : Write.addRow (.receipt written) ∈ ws
  isKey : IsKeyRecord rt scope key record
  digest : record.requestDigest = c.op.requestDigest rt
  written_inScope : written.inScope scope = true
  written_hash : written.recordHash = record.responseReceiptHash
  returned : result.receipt? = some receipt
  inScope : receipt.inScope scope = true
  hash : receipt.recordHash = record.responseReceiptHash

theorem idempotencyRow_columns {id : PyStr} {scope : Scope} {kd rd hash : PyStr} {n : Int}
    {p : Option PyStr} {at_ : Stamp} {row : IdempotencyRecord}
    (h : idempotencyRow rt id scope kd rd hash n p at_ = .ok row) :
    row.inScope scope = true ∧ row.keyDigest = kd ∧ row.requestDigest = rd ∧
      row.responseReceiptHash = hash := by
  have hs := (idempotencyRow_sealed h).sealed.inScope
  obtain ⟨_, _, rfl⟩ := idempotencyRow_ok h
  exact ⟨hs, rfl, rfl, rfl⟩

/-- **A keyed call that commits writes its key.** -/
theorem StoreCall.Commits.keyed (hsha : ∀ bytes, rt.sha256 bytes ≠ []) {c : StoreCall} {db : Db}
    {ws : List Write} {result : StoreResult} {scope : Scope} {key : PyStr}
    (h : c.Commits rt db ws result) (hkey : c.op.key = some (scope, key)) :
    ∃ record written receipt, KeyedRows rt c scope key ws result record written receipt := by
  cases h with
  | @receipt _ _ key' _ _ _ hop hok h =>
    rw [hop] at hkey
    cases key' with
    | none => cases hkey
    | some key' =>
      cases hkey
      rw [keyDigestOf_some hsha hok] at h
      cases h with
      | plain hnone => cases hnone
      | keyed hsome _ _ _ hrow hrow' =>
        cases hsome
        obtain ⟨hin, hk, hr, hh⟩ := idempotencyRow_columns hrow'
        exact ⟨_, _, _, by simp [mem_appendWrites], by simp [mem_appendWrites], ⟨hin, hk⟩,
          by rw [hr, hop]; rfl, (receiptRow_sealed hrow).sealed.inScope, hh.symm, rfl,
          (receiptRow_sealed hrow).sealed.inScope, hh.symm⟩
  | bundle hop hok h =>
    rw [hop] at hkey
    cases hkey
    obtain ⟨_, rows, hc, hhash, hin⟩ := h
    cases hc with
    | mk _ _ _ _ _ hrows =>
      obtain ⟨hreceipt, hrow, _, _⟩ := bundleRows_ok hrows
      obtain ⟨hin', hk, hr, hh⟩ := idempotencyRow_columns hrow
      exact ⟨rows.idempotency, rows.receipt, _, by simp [mem_appendWrites, BundleRows.appends],
        by simp [mem_appendWrites, BundleRows.appends], ⟨hin', hk⟩, by rw [hr, hop]; rfl,
        (receiptRow_sealed hreceipt).sealed.inScope, hh.symm, rfl, hin, hhash.trans hh.symm⟩
  | tenant hop => rw [hop] at hkey; cases hkey
  | workspace hop => rw [hop] at hkey; cases hkey
  | provisioning hop => rw [hop] at hkey; cases hkey
  | memory hop => rw [hop] at hkey; cases hkey
  | anatomy hop => rw [hop] at hkey; cases hkey
  | insert hop => rw [hop] at hkey; cases hkey
  | upsert hop => rw [hop] at hkey; cases hkey
  | batch hop => rw [hop] at hkey; cases hkey

/-- **A keyed call that writes nothing returns the receipt its key names.** -/
theorem StoreCall.Replays.keyed {c : StoreCall} {db : Db}
    {result : StoreResult} {scope : Scope} {key : PyStr} (h : c.Replays rt result db)
    (hkey : c.op.key = some (scope, key)) :
    ∃ record ∈ db.idempotency, IsKeyRecord rt scope key record ∧
      record.requestDigest = c.op.requestDigest rt ∧
      ∃ receipt ∈ db.receipts, result.receipt? = some receipt ∧ receipt.inScope scope = true ∧
        receipt.recordHash = record.responseReceiptHash := by
  obtain ⟨op, sup, retry⟩ := c
  cases op with
  | appendReceipt scope' draft key' createdAt =>
    cases key' with
    | none => cases hkey
    | some key' =>
      cases hkey
      cases result with
      | receipt r =>
        obtain ⟨record, hm, hs, hk, hd, hr, hrs, hh⟩ := h
        exact ⟨record, hm, ⟨hs, keyDigestOf_eq hk⟩, hd, r, hr, rfl, hrs, hh⟩
      | _ => cases h
  | appendAnalysisBundle scope' _ _ _ key' _ _ =>
    cases hkey
    cases result with
    | bundle b =>
      obtain ⟨_, record, hm, hs, hk, hd, hr, hrs, hh⟩ := h
      exact ⟨record, hm, ⟨hs, Option.some.inj hk⟩, hd, b.receipt, hr, rfl, hrs, hh⟩
    | _ => cases h
  | _ => cases hkey

/-- **A keyed call fails by a fault, by a PersistenceError, or by an error in its
own arguments.** -/
theorem StoreCall.Fails.keyed {c : StoreCall} {e : Exn} {scope : Scope} {key : PyStr}
    (h : c.Fails F e) (hkey : c.op.key = some (scope, key)) : Failure F LocalError e := by
  obtain ⟨op, sup, retry⟩ := c
  cases op with
  | appendReceipt => exact h
  | appendAnalysisBundle => exact h
  | _ => cases hkey

/-! ## §4. Exactly once. -/

section Once

variable {ι : Type} [DecidableEq ι] {calls : ι → StoreCall} {c : StoreConfig ι}

/-- A commit that wrote rows, of a call that carries the key. -/
def WritesUnder (calls : ι → StoreCall) (scope : Scope) (key : PyStr) (e : CommitEvent Db Write ι) :
    Prop :=
  (calls e.who).op.key = some (scope, key) ∧ e.rows ≠ []

variable {db₀ : Db} {scope : Scope} {key : PyStr}

/-- A key that was written is there. -/
theorem stored_key_mem {db db' : Db} {ws : List Write} {record : IdempotencyRecord}
    (hr : Write.addRow (.idempotency record) ∈ ws)
    (henv : Env (engine d) index (Effect rt d) [] ((engine d).commit db ws) db') :
    { record with createdAt := d.stamp record.createdAt } ∈ db'.idempotency := by
  obtain ⟨r, hr', he⟩ := List.mem_map.mp (stored_row_mem hr henv)
  rw [← Row.idempotency.inj he]
  exact hr'

/-- What a keyed commit wrote. -/
theorem Reached.keyed (h : Reached rt d F db₀ calls c) (hsha : ∀ bytes, rt.sha256 bytes ≠ [])
    {e : CommitEvent Db Write ι} (he : e ∈ c.log) (hw : WritesUnder calls scope key e) :
    ∃ result record written receipt,
      KeyedRows rt (calls e.who) scope key e.rows result record written receipt ∧
      { record with createdAt := d.stamp record.createdAt } ∈ c.db.idempotency := by
  obtain ⟨_, result, hc⟩ := h.inv.commit_once (index_lawful d) he hw.2
  obtain ⟨record, written, receipt, hk⟩ := hc.keyed hsha hw.1
  exact ⟨result, record, written, receipt, hk, stored_key_mem hk.record_mem (h.inv.logPath e he)⟩

/-- A call whose request differs from that of the record commits nothing. -/
theorem Reached.conflict (h : Reached rt d F db₀ calls c) (hi : StoreInv rt db₀)
    (hsha : ∀ bytes, rt.sha256 bytes ≠ []) {record : IdempotencyRecord}
    (hr : record ∈ c.db.idempotency) (hk : IsKeyRecord rt scope key record) {i : ι}
    (hkey : (calls i).op.key = some (scope, key))
    (hd : (calls i).op.requestDigest rt ≠ record.requestDigest) :
    ∀ x ∈ commitsOf c.log i, x.2 = [] := by
  intro x hx
  by_contra hne
  unfold commitsOf at hx
  obtain ⟨e, he, rfl⟩ := List.mem_map.mp hx
  obtain ⟨hlog, hwho⟩ := List.mem_filter.mp he
  obtain rfl : e.who = i := by simpa using hwho
  obtain ⟨_, written, _, _, hrows, hmem⟩ := h.keyed hsha hlog ⟨hkey, hne⟩
  -- the key index holds one record, so that this commit would be the record's own
  have hsame := keyRecord_unique (h.storeInv hi) hr hmem hk.1 hrows.isKey.1
    (hk.2.trans hrows.isKey.2.symm)
  rw [hsame] at hd
  exact hd hrows.digest.symm

end Once

/-! ## §5. A receipt and a bundle under one key. -/

def noFault (_ : Exn) : Prop := False

end Lyte
