import Lyte.Persistence.BundleResolve

/-
  Lyte.Persistence.BundleAtomicity — all of a bundle, or nothing.

  `append_analysis_bundle` writes twelve rows and four heads in one transaction
  and resolves the bundle before it commits.  §1 says when the lookups of the
  resolver find exactly the rows of a bundle (`HasBundle`), §2 follows the
  transaction statement by statement, and §3 compares the committed rows with
  what was there before:

      appendAnalysisBundle_atomic   a call leaves everything as it was, or has
                                    appended the whole bundle; and the bundle
                                    is found again on the committed rows if and
                                    only if its datetimes survive their columns.
-/

namespace Lyte

open Transact HashChain

variable {rt : Runtime} {d : Dialect} {sup : Supply} {scope : Scope}

/-! ## §1. What the lookups find. -/

/-- What the rows of a bundle are looked up by. -/
structure BundleNames (scope : Scope) (keyDigest traceId : PyStr) (r : BundleRows) : Prop where
  receipt : r.receipt.inScope scope = true
  key : r.idempotency.inScope scope = true ∧ r.idempotency.keyDigest = keyDigest
  response : r.idempotency.responseReceiptHash = r.receipt.recordHash
  memory : r.memory.inScope scope = true ∧ r.memory.receiptHash = some r.receipt.recordHash
  traces : ∀ t ∈ r.traces, t.inScope scope = true ∧ t.traceId = traceId
  sequences : r.traces.Pairwise (fun a b => a.sequence ≤ b.sequence)

/-- No row answers to these names yet. -/
structure BundleUnused (db : Db) (scope : Scope) (keyDigest traceId receiptHash : PyStr) :
    Prop where
  key : ∀ i ∈ db.idempotency, i.inScope scope = true → i.keyDigest ≠ keyDigest
  receipt : ∀ r ∈ db.receipts, r.inScope scope = true → r.recordHash ≠ receiptHash
  memory : ∀ m ∈ db.memory, m.inScope scope = true → m.receiptHash ≠ some receiptHash
  traces : ∀ t ∈ db.anatomy, t.inScope scope = true → t.traceId ≠ traceId

/-- The tables after the rows of a bundle were added. -/
structure BundleAdded (db db' : Db) (r : BundleRows) : Prop where
  receipts : db'.receipts = db.receipts ++ [r.receipt]
  idempotency : db'.idempotency = db.idempotency ++ [r.idempotency]
  memory : db'.memory = db.memory ++ [r.memory]
  anatomy : db'.anatomy = db.anatomy ++ r.traces
  operational : db'.operational = db.operational

/-- **The lookups of the resolver find exactly the bundle.** -/
structure HasBundle (db : Db) (scope : Scope) (keyDigest traceId : PyStr) (r : BundleRows) :
    Prop where
  key : findIdempotency db scope keyDigest = some r.idempotency
  receipt : findReceipt db scope r.idempotency.responseReceiptHash = some r.receipt
  memory : findMemory db scope r.receipt.recordHash = [r.memory]
  traces : findTraces db scope traceId = r.traces

theorem find_append_of_unused {α : Type} {p : α → Bool} {as : List α} {a : α}
    (h : ∀ x ∈ as, p x = false) (ha : p a = true) : (as ++ [a]).find? p = some a := by
  have hnone : as.find? p = none := by
    rw [List.find?_eq_none]
    intro x hx
    rw [h x hx]
    exact Bool.false_ne_true
  rw [List.find?_append, hnone, Option.none_or, List.find?_cons_of_pos ha]

theorem filter_append_of_unused {α : Type} {p : α → Bool} {as bs : List α}
    (h : ∀ x ∈ as, p x = false) (hb : ∀ x ∈ bs, p x = true) : (as ++ bs).filter p = bs := by
  have hnil : as.filter p = [] := by
    rw [List.filter_eq_nil_iff]
    intro x hx
    rw [h x hx]
    exact Bool.false_ne_true
  rw [List.filter_append, hnil, List.nil_append, List.filter_eq_self]
  exact hb

/-- A conjunction of lookups that fails. -/
theorem inScope_and_false {m : AppendOnlyMixin} {b : Bool}
    (h : m.inScope scope = true → b = false) : (m.inScope scope && b) = false := by
  cases hm : m.inScope scope with
  | false => rfl
  | true => rw [h hm]; rfl

/-- The receipt of a bundle is found by its hash. -/
theorem findReceipt_of_added {db db' : Db} {keyDigest traceId : PyStr} {r : BundleRows}
    (hn : BundleNames scope keyDigest traceId r)
    (hu : ∀ x ∈ db.receipts, x.inScope scope = true → x.recordHash ≠ r.receipt.recordHash)
    (ha : BundleAdded db db' r) : findReceipt db' scope r.receipt.recordHash = some r.receipt := by
  unfold findReceipt
  rw [ha.receipts]
  refine find_append_of_unused (fun x hx => inScope_and_false fun hs => ?_) ?_
  · exact beq_eq_false_iff_ne.mpr (hu x hx hs)
  · rw [hn.receipt, beq_self_eq_true]
    rfl

/-- **A bundle of unused names is found as it was added.** -/
theorem hasBundle_of_added {db db' : Db} {keyDigest traceId : PyStr} {r : BundleRows}
    (hn : BundleNames scope keyDigest traceId r)
    (hu : BundleUnused db scope keyDigest traceId r.receipt.recordHash)
    (ha : BundleAdded db db' r) : HasBundle db' scope keyDigest traceId r := by
  constructor
  · unfold findIdempotency
    rw [ha.idempotency]
    refine find_append_of_unused (fun i hi => inScope_and_false fun hs => ?_) ?_
    · exact beq_eq_false_iff_ne.mpr (hu.key i hi hs)
    · rw [hn.key.1, hn.key.2, beq_self_eq_true]
      rfl
  · rw [hn.response]
    exact findReceipt_of_added hn hu.receipt ha
  · unfold findMemory
    rw [ha.memory]
    refine filter_append_of_unused (fun m hm => inScope_and_false fun hs => ?_) ?_
    · exact beq_eq_false_iff_ne.mpr (hu.memory m hm hs)
    · intro m hm
      rw [List.mem_singleton.mp hm, hn.memory.1, hn.memory.2, beq_self_eq_true]
      rfl
  · have hfilter : (db.anatomy ++ r.traces).filter
        (fun t => t.inScope scope && t.traceId == traceId) = r.traces := by
      refine filter_append_of_unused (fun t ht => inScope_and_false fun hs => ?_) ?_
      · exact beq_eq_false_iff_ne.mpr (hu.traces t ht hs)
      · intro t ht
        rw [(hn.traces t ht).1, (hn.traces t ht).2, beq_self_eq_true]
        rfl
    unfold findTraces
    rw [ha.anatomy, hfilter]
    exact hn.sequences.insertionSort_eq

theorem BundleNames.stored {keyDigest traceId : PyStr} {r : BundleRows}
    (h : BundleNames scope keyDigest traceId r) :
    BundleNames scope keyDigest traceId (r.stored d) where
  receipt := h.receipt
  key := h.key
  response := h.response
  memory := h.memory
  traces t ht := by
    obtain ⟨t', ht', rfl⟩ := List.mem_map.mp ht
    exact h.traces t' ht'
  sequences := List.pairwise_map.mpr h.sequences

/-! ## §2. The rows of a bundle. -/

section Rows

variable {receiptDraft : ReceiptDraft} {memoryDraft : MemoryDraft} {traces : List AnatomyTrace}
variable {keyDigest requestDigest partitionDigest : PyStr} {at_ : Stamp}
variable {receiptHead idempotencyHead memoryHead anatomyHead : StreamHeadRecord}

/-- The rows of a bundle, table by table. -/
def BundleRows.rows (r : BundleRows) : StreamKind → List Row
  | .receipts => [.receipt r.receipt]
  | .idempotency => [.idempotency r.idempotency]
  | .memory => [.memory r.memory]
  | .anatomy => r.traces.map .anatomy
  | .operational => []

/-- The flush of a bundle adds its rows. -/
theorem addedRows_appends (r : BundleRows) (k : StreamKind) :
    addedRows (appendWrites
      (r.appends at_ receiptHead idempotencyHead memoryHead anatomyHead)) k = r.rows k := by
  have hanatomy : ∀ k', (r.traces.map Row.anatomy).filter (fun x => x.stream = k')
      = if k' = .anatomy then r.traces.map .anatomy else [] := by
    intro k'
    split
    · next h =>
      rw [List.filter_eq_self]
      simp [h]
    · next h =>
      rw [List.filter_eq_nil_iff]
      intro x hx
      obtain ⟨t, _, rfl⟩ := List.mem_map.mp hx
      simpa [eq_comm] using h
  unfold BundleRows.appends appendWrites
  simp only [List.flatMap_cons, List.flatMap_nil, List.append_nil, addedRows_append,
    addedRows_writes, hanatomy]
  cases k <;> simp [BundleRows.rows]

theorem stored_rows (r : BundleRows) (k : StreamKind) :
    (r.rows k).map (Row.stored d) = (r.stored d).rows k := by
  cases k with
  | anatomy =>
    show (r.traces.map Row.anatomy).map (Row.stored d)
      = (r.traces.map (AnatomyTraceRecord.stored d)).map Row.anatomy
    rw [List.map_map, List.map_map]
    rfl
  | _ => rfl

/-- Tables that grew by the rows of a bundle. -/
theorem bundleAdded_of_rows {db db' : Db} {r : BundleRows}
    (h : ∀ k, db'.rows k = db.rows k ++ r.rows k) : BundleAdded db db' r where
  receipts := by
    have hrows : db'.receipts.map Row.receipt = db.receipts.map .receipt ++ [.receipt r.receipt] :=
      h .receipts
    rw [← List.map_singleton, ← List.map_append] at hrows
    exact (List.map_inj_right (fun _ _ => Row.receipt.inj)).mp hrows
  idempotency := by
    have hrows : db'.idempotency.map Row.idempotency
        = db.idempotency.map .idempotency ++ [.idempotency r.idempotency] := h .idempotency
    rw [← List.map_singleton, ← List.map_append] at hrows
    exact (List.map_inj_right (fun _ _ => Row.idempotency.inj)).mp hrows
  memory := by
    have hrows : db'.memory.map Row.memory = db.memory.map .memory ++ [.memory r.memory] :=
      h .memory
    rw [← List.map_singleton, ← List.map_append] at hrows
    exact (List.map_inj_right (fun _ _ => Row.memory.inj)).mp hrows
  anatomy := by
    have hrows : db'.anatomy.map Row.anatomy = db.anatomy.map .anatomy ++ r.traces.map .anatomy :=
      h .anatomy
    rw [← List.map_append] at hrows
    exact (List.map_inj_right (fun _ _ => Row.anatomy.inj)).mp hrows
  operational := by
    have hrows : db'.operational.map Row.operational = db.operational.map .operational ++ [] :=
      h .operational
    rw [List.append_nil] at hrows
    exact (List.map_inj_right (fun _ _ => Row.operational.inj)).mp hrows

theorem bundleAdded_view (db : Db) (r : BundleRows) :
    BundleAdded db ((engine d).view db (appendWrites
      (r.appends at_ receiptHead idempotencyHead memoryHead anatomyHead))) r := by
  refine bundleAdded_of_rows (fun k => ?_)
  rw [rows_view, addedRows_appends]

theorem bundleAdded_commit (db : Db) (r : BundleRows) :
    BundleAdded db ((engine d).commit db (appendWrites
      (r.appends at_ receiptHead idempotencyHead memoryHead anatomyHead))) (r.stored d) := by
  refine bundleAdded_of_rows (fun k => ?_)
  rw [rows_commit, addedRows_appends, stored_rows]

/-- The columns that a trace row is found by. -/
theorem traceRows_columns {i : Nat} {n : Int} {p : Option PyStr} {rows : List AnatomyTraceRecord}
    (h : traceRows rt sup scope at_ traces i n p = .ok rows) :
    (∀ r ∈ rows, r.inScope scope = true) ∧
      rows.map AnatomyTraceRecord.traceId = traces.map (fun t => t.traceId.text) := by
  induction traces generalizing i n p rows with
  | nil =>
    cases h
    exact ⟨by simp, rfl⟩
  | cons trace traces ih =>
    obtain ⟨row, hrow, h⟩ := ok_of_bind h
    obtain ⟨rest, hrest, h⟩ := ok_of_bind h
    cases h
    obtain ⟨hscope, hids⟩ := ih hrest
    have hin := (anatomyRow_sealed hrow).sealed.inScope
    obtain ⟨_, _, _, _, rfl⟩ := anatomyRow_ok hrow
    refine ⟨?_, by rw [List.map_cons, List.map_cons, hids]⟩
    intro r hr
    rcases List.mem_cons.mp hr with rfl | hr
    · exact hin
    · exact hscope r hr

/-- What the argument checks say of the trace id. -/
theorem checkBundleArguments_traceId
    (h : checkBundleArguments rt scope receiptDraft memoryDraft traces requestDigest = .ok ()) :
    ∃ traceId : Uuid, traces.length = 9 ∧ (∀ t ∈ traces, t.traceId = traceId) ∧
      receiptDraft.payload.get (py "trace_id") = .str traceId.text := by
  unfold checkBundleArguments at h
  obtain ⟨_, h⟩ := ok_of_guard h
  obtain ⟨hlen, h⟩ := ok_of_guard h
  cases traces with
  | nil => cases h
  | cons first rest =>
    obtain ⟨hshared, h⟩ := ok_of_guard h
    obtain ⟨_, _, h⟩ := ok_of_bind h
    obtain ⟨_, h⟩ := ok_of_guard h
    obtain ⟨hlink, _⟩ := ok_of_guard h
    simp only [Bool.or_eq_true, List.any_eq_true, decide_eq_true_eq, not_or, not_exists, not_and,
      not_not] at hshared
    refine ⟨first.traceId, not_not.mp hlen, hshared.1, ?_⟩
    cases hp : receiptDraft.payload.get (py "trace_id") with
    | str s =>
      rw [hp] at hlink
      simp at hlink
      rw [hlink]
    | _ =>
      rw [hp] at hlink
      simp [Json.pyEq, Json.numEq, Json.num?] at hlink

/-- What the rows of a bundle are looked up by. -/
theorem bundleNames_of_rows {traceId : Uuid} {rows : BundleRows}
    (htraces : ∀ t ∈ traces, t.traceId = traceId)
    (h : bundleRows rt sup scope receiptDraft memoryDraft traces keyDigest requestDigest
      partitionDigest at_ receiptHead idempotencyHead memoryHead anatomyHead = .ok rows) :
    BundleNames scope keyDigest traceId.text rows := by
  obtain ⟨hr, hi, hm, ht⟩ := bundleRows_ok h
  obtain ⟨hkeyScope, hkey, _, hresponse⟩ := idempotencyRow_columns hi
  have hmemory := (memoryRow_sealed hm).sealed.inScope
  obtain ⟨hchain, _⟩ := traceRows_sealed ht
  obtain ⟨hscope, hids⟩ := traceRows_columns ht
  refine ⟨(receiptRow_sealed hr).sealed.inScope, ⟨hkeyScope, hkey⟩, hresponse, ⟨hmemory, ?_⟩, ?_,
    ?_⟩
  · obtain ⟨_, _, he⟩ := memoryRow_ok hm
    rw [he]
  · intro t hmem
    refine ⟨hscope t hmem, ?_⟩
    have hid : t.traceId ∈ traces.map (fun t => t.traceId.text) := by
      rw [← hids]
      exact List.mem_map.mpr ⟨t, hmem, rfl⟩
    obtain ⟨trace, htr, he⟩ := List.mem_map.mp hid
    rw [← he, htraces trace htr]
  · have hsorted := (chained_pairwise hchain).1
    rw [List.pairwise_map] at hsorted
    exact hsorted.imp (fun hlt => le_of_lt hlt)

end Rows

/-! ## §3. The transaction. -/

section Transaction

variable {receiptDraft : ReceiptDraft} {memoryDraft : MemoryDraft} {traces : List AnatomyTrace}
variable {keyDigest requestDigest partitionDigest : PyStr} {at_ : Stamp} {db : Db}

/-- **A transaction that writes a new bundle**, on the committed rows `db`. -/
structure NewBundle (rt : Runtime) (d : Dialect) (sup : Supply) (scope : Scope)
    (receiptDraft : ReceiptDraft) (memoryDraft : MemoryDraft) (traces : List AnatomyTrace)
    (keyDigest requestDigest partitionDigest : PyStr) (at_ : Stamp) (db : Db) (ws : List Write)
    (rows : BundleRows) (b : AnalysisBundle) : Prop where
  commit : BundleCommit rt sup scope receiptDraft memoryDraft traces keyDigest requestDigest
    partitionDigest at_ db ws rows
  unused : findIdempotency db scope keyDigest = none
  fresh : index.Fresh db ws
  new : b.idempotentReplay = false
  resolved : Resolved rt d sup scope rows.idempotency requestDigest ((engine d).view db ws) b

theorem eval_assertScope_ok {r : Unit × List Write}
    (h : (assertScope scope).eval (engine d) db [] = .ok r) :
    r.2 = [] ∧ HasWorkspace db scope := by
  rw [eval_assertScope] at h
  split at h
  · next hs =>
    cases h
    refine ⟨rfl, ?_⟩
    unfold scopeAsserted at hs
    cases hw : db.workspaces.find? (fun w => w.id == scope.workspaceId.text) with
    | none =>
      rw [hw] at hs
      cases hs
    | some w =>
      rw [hw] at hs
      exact ⟨w, List.mem_of_find?_eq_some hw, by simpa using hs,
        by simpa using List.find?_some hw⟩
  · cases h

theorem eval_lockedHead_ok {k : StreamKind} {head : StreamHeadRecord} {rows : List Write}
    (h : (lockedHead scope k).eval (engine d) db [] = .ok (head, rows)) :
    rows = [] ∧ headOf db scope k = some head := by
  rw [eval_lockedHead] at h
  cases hh : headOf db scope k with
  | none =>
    rw [hh] at h
    cases h
  | some head' =>
    rw [hh] at h
    cases h
    exact ⟨rfl, rfl⟩

/-- **What the transaction of a bundle evaluates to**: a bundle that is there, or
a new one. -/
theorem eval_bundleBody_ok {b : AnalysisBundle} {ws : List Write}
    (h : (appendAnalysisBundleBody rt d sup scope receiptDraft memoryDraft traces keyDigest
      requestDigest partitionDigest at_).eval (engine d) db [] = .ok (b, ws)) :
    (ws = [] ∧ b.idempotentReplay = true ∧ ∃ record,
      findIdempotency db scope keyDigest = some record ∧
      Resolved rt d sup scope record requestDigest db b) ∨
    ∃ rows, NewBundle rt d sup scope receiptDraft memoryDraft traces keyDigest requestDigest
      partitionDigest at_ db ws rows b := by
  unfold appendAnalysisBundleBody at h
  simp only [Body.bind_eq] at h
  obtain ⟨_, rows, ha, h⟩ := eval_bind_ok _ h
  obtain ⟨hrows, hws⟩ := eval_assertScope_ok ha
  simp only at hrows
  subst hrows
  rw [eval_select_bind, Engine.view_nil] at h
  cases hfind : findIdempotency db scope keyDigest with
  | some record =>
    rw [hfind] at h
    obtain ⟨rfl, hreplay, hres⟩ := eval_resolve_iff.mp h
    exact .inl ⟨rfl, hreplay, record, rfl, hres⟩
  | none =>
    rw [hfind] at h
    simp only at h
    obtain ⟨receiptHead, _, hl, h⟩ := eval_bind_ok _ h
    obtain ⟨rfl, hreceipts⟩ := eval_lockedHead_ok hl
    obtain ⟨idempotencyHead, _, hl, h⟩ := eval_bind_ok _ h
    obtain ⟨rfl, hidempotency⟩ := eval_lockedHead_ok hl
    obtain ⟨memoryHead, _, hl, h⟩ := eval_bind_ok _ h
    obtain ⟨rfl, hmemory⟩ := eval_lockedHead_ok hl
    obtain ⟨anatomyHead, _, hl, h⟩ := eval_bind_ok _ h
    obtain ⟨rfl, hanatomy⟩ := eval_lockedHead_ok hl
    rw [eval_select_bind, Engine.view_nil, hfind] at h
    simp only at h
    obtain ⟨bundle, _, hb, h⟩ := eval_bind_ok _ h
    obtain ⟨hbundle, rfl⟩ := eval_ofExcept_ok _ hb
    obtain ⟨_, pending, hflush, h⟩ := eval_bind_ok _ h
    obtain ⟨hpending, haccepted⟩ := eval_flush_ok _ hflush
    rw [List.nil_append] at hpending
    subst hpending
    obtain ⟨rfl, hnew, hres⟩ := eval_resolve_iff.mp h
    refine .inr ⟨bundle, .mk hws hreceipts hidempotency hmemory hanatomy hbundle, hfind, ?_, hnew,
      hres⟩
    have hf := fresh_of_accepted (index_lawful d) (Index.Fresh.nil index db) haccepted
    rwa [List.nil_append] at hf

/-- A hash that is written is new in its stream. -/
theorem hash_unused {ws : List Write} {r : ReceiptRecord} (hf : index.Fresh db ws)
    (hr : Write.addRow (.receipt r) ∈ ws) (hin : r.inScope scope = true) :
    ∀ x ∈ db.receipts, x.inScope scope = true → x.recordHash ≠ r.recordHash := by
  intro x hx hs heq
  obtain ⟨hrt, hrw⟩ := inScope_ids hin
  obtain ⟨hxt, hxw⟩ := inScope_ids hs
  refine hf.unused (.rowHash .receipts scope.tenantId.text scope.workspaceId.text r.recordHash)
    (List.mem_flatMap.mpr ⟨_, hr, ?_⟩) ?_
  · simp [Write.keys, Row.keys, hrt, hrw]
  · show _ ∈ db.keys
    refine keys_of_row (k := .receipts) (r := .receipt x) (List.mem_map.mpr ⟨x, hx, rfl⟩) ?_
    simp [Row.keys, hxt, hxw, heq]

/-- The trace id in the payload of a draft that passed its checks. -/
theorem payloadTraceId_draft {r : ReceiptRecord} {traceId text : PyStr}
    {payload : List (PyStr × Json)} (hr : r.payloadJson = receiptDraft.payload.json)
    (hd : receiptDraft.payload.get (py "trace_id") = .str traceId)
    (h : payloadTraceId r = .ok (payload, text)) : text = traceId := by
  have hfields : dictFields r.payloadJson = some receiptDraft.payload.fields := by
    rw [hr]
    rfl
  have hget : Json.get receiptDraft.payload.fields (py "trace_id") = .str traceId := hd
  unfold payloadTraceId at h
  simp only [hfields, hget] at h
  cases h
  rfl

/-- **A new bundle is what its transaction wrote**, and its names are its own. -/
theorem NewBundle.names {ws : List Write} {rows : BundleRows} {b : AnalysisBundle}
    (hi : StoreInv rt db)
    (hcheck : checkBundleArguments rt scope receiptDraft memoryDraft traces requestDigest = .ok ())
    (h : NewBundle rt d sup scope receiptDraft memoryDraft traces keyDigest requestDigest
      partitionDigest at_ db ws rows b) :
    ∃ traceId payload, BundleNames scope keyDigest traceId rows ∧
      BundleUnused db scope keyDigest traceId rows.receipt.recordHash ∧
      payloadTraceId rows.receipt = .ok (payload, traceId) ∧
      Checked rt d scope rows.receipt payload traceId rows.memory rows.traces ∧
      b = ⟨rows.receipt, rows.memory, rows.traces, false⟩ := by
  obtain ⟨hcommit, hunused, hfresh, hnew, hres⟩ := h
  cases hcommit with
  | @mk receiptHead idempotencyHead memoryHead anatomyHead _ hws hrh hih hmh hah hrows =>
    obtain ⟨traceId, hnine, hids, hdraft⟩ := checkBundleArguments_traceId hcheck
    have hnames := bundleNames_of_rows hids hrows
    obtain ⟨hr, _, _, ht⟩ := bundleRows_ok hrows
    have hadded : BundleAdded db ((engine d).view db (appendWrites
        (rows.appends at_ receiptHead idempotencyHead memoryHead anatomyHead))) rows :=
      bundleAdded_view db rows
    have hhash : ∀ x ∈ db.receipts, x.inScope scope = true →
        x.recordHash ≠ rows.receipt.recordHash :=
      hash_unused hfresh (by simp [mem_appendWrites, BundleRows.appends]) hnames.receipt
    -- the receipt that the resolver found is the new one
    have hreceipt : b.receipt = rows.receipt := by
      have hfound := findReceipt_of_added hnames hhash hadded
      have hres' := hres.receipt
      rw [hnames.response, hfound] at hres'
      exact (Option.some.inj hres').symm
    obtain ⟨payload, text, hpayload, hmemory, htraces, hchecked⟩ := hres.checked
    rw [hreceipt] at hpayload hmemory hchecked
    have hpj : rows.receipt.payloadJson = receiptDraft.payload.json := by
      obtain ⟨_, _, _, _, he⟩ := receiptRow_ok hr
      rw [he]
    obtain rfl := payloadTraceId_draft hpj hdraft hpayload
    -- nine traces were found, and nine were written
    obtain ⟨_, _, hcomplete, _, _⟩ := hchecked.linked
    have hfound9 := (completeBundle_iff.mp hcomplete).2.nine
    have hwritten9 : rows.traces.length = 9 := by
      obtain ⟨_, hlen⟩ := traceRows_sealed ht
      rw [hlen, hnine]
    have hold : ∀ t ∈ db.anatomy, t.inScope scope = true → t.traceId ≠ traceId.text := by
      have hfilter : rows.traces.filter (fun t => t.inScope scope && t.traceId == traceId.text)
          = rows.traces := by
        rw [List.filter_eq_self]
        intro t hmem
        rw [(hnames.traces t hmem).1, (hnames.traces t hmem).2, beq_self_eq_true]
        rfl
      rw [← htraces] at hfound9
      unfold findTraces at hfound9
      rw [List.length_insertionSort, hadded.anatomy, List.filter_append, List.length_append, hfilter,
        hwritten9] at hfound9
      have hnil := List.eq_nil_of_length_eq_zero (Nat.add_right_cancel (m := 9) (k := 0) hfound9)
      rw [List.filter_eq_nil_iff] at hnil
      intro t hmem hs heq
      refine hnil t hmem ?_
      rw [hs, heq, beq_self_eq_true]
      rfl
    have hunused' : BundleUnused db scope keyDigest traceId.text rows.receipt.recordHash := by
      refine ⟨?_, hhash, ?_, hold⟩
      · intro i hmem hs heq
        unfold findIdempotency at hunused
        rw [List.find?_eq_none] at hunused
        refine hunused i hmem ?_
        rw [hs, heq, beq_self_eq_true]
        rfl
      · intro m hmem hs heq
        obtain ⟨x, hx, ⟨hxt, hxw⟩, hxh⟩ := hi.memory m hmem
        obtain ⟨hmt, hmw⟩ := inScope_ids hs
        refine hhash x hx ?_ ?_
        · simp [AppendOnlyMixin.inScope, hxt, hxw, hmt, hmw]
        · rw [heq] at hxh
          exact (Option.some.inj hxh).symm
    have hhas := hasBundle_of_added hnames hunused' hadded
    rw [hhas.memory] at hmemory
    have hmemory' : b.memory = rows.memory := List.mem_singleton.mp (sup.pickMemory.mem hmemory)
    have htraces' : b.traces = rows.traces := htraces.symm.trans hhas.traces
    rw [hmemory', htraces'] at hchecked
    refine ⟨traceId.text, payload, hnames, hunused', hpayload, hchecked, ?_⟩
    obtain ⟨receipt, memory, trs, replay⟩ := b
    simp only at hreceipt hmemory' htraces' hnew
    rw [hreceipt, hmemory', htraces', hnew]

end Transaction

/-! ## §4. All or nothing. -/

section Atomicity

variable {receiptDraft : ReceiptDraft} {memoryDraft : MemoryDraft} {traces : List AnatomyTrace}
variable {keyDigest requestDigest partitionDigest : PyStr} {at_ : Stamp} {db : Db}

theorem BundleAdded.rows {db db' : Db} {r : BundleRows} (h : BundleAdded db db' r)
    (k : StreamKind) : db'.rows k = db.rows k ++ r.rows k := by
  cases k with
  | receipts => show db'.receipts.map _ = _; rw [h.receipts, List.map_append]; rfl
  | idempotency => show db'.idempotency.map _ = _; rw [h.idempotency, List.map_append]; rfl
  | memory => show db'.memory.map _ = _; rw [h.memory, List.map_append]; rfl
  | anatomy => show db'.anatomy.map _ = _; rw [h.anatomy, List.map_append]; rfl
  | operational =>
    show db'.operational.map _ = _
    rw [h.operational]
    exact (List.append_nil _).symm

/-- The rows of a bundle are all of its scope. -/
theorem BundleNames.inScope {traceId : PyStr} {r : BundleRows}
    (h : BundleNames scope keyDigest traceId r) (k : StreamKind) :
    ∀ x ∈ r.rows k, x.mixin.inScope scope = true := by
  intro x hx
  cases k with
  | receipts => rw [List.mem_singleton.mp hx]; exact h.receipt
  | idempotency => rw [List.mem_singleton.mp hx]; exact h.key.1
  | memory => rw [List.mem_singleton.mp hx]; exact h.memory.1
  | anatomy =>
    obtain ⟨t, ht, rfl⟩ := List.mem_map.mp hx
    exact (h.traces t ht).1
  | operational => cases hx

end Atomicity

/-! ## §5. The call. -/

section Call

/-- The recovery of a bundle only ever returns one that is there. -/
theorem bundleRecovery_exec (rt : Runtime) (d : Dialect) (sup : Supply) (scope : Scope)
    (keyDigest requestDigest : PyStr) (db : Db) (e : Exn) (faults : List (Option Exn)) :
    ∃ r fs, (bundleRecovery rt d sup scope keyDigest requestDigest e).exec (engine d)
        (.idle db faults) = (r, .idle db fs) ∧
      ∀ b, r = .ok b → b.idempotentReplay = true := by
  unfold bundleRecovery
  split
  · rw [exec_tryCatch]
    rcases exec_readSession (engine d) (recoverBundle rt d sup scope keyDigest requestDigest) db
      faults with ⟨e', fs, hx⟩ | ⟨b, rows, fs, heval, hx⟩
    · rw [hx]
      simp only
      split
      · exact ⟨_, fs, rfl, fun b hb => by cases hb⟩
      · exact ⟨_, fs, rfl, fun b hb => by cases hb⟩
    · rw [hx]
      refine ⟨_, fs, rfl, fun b' hb => ?_⟩
      cases hb
      unfold recoverBundle at heval
      rw [Body.bind_eq, eval_select_bind, Engine.view_nil] at heval
      cases hfind : findIdempotency db scope keyDigest with
      | none =>
        rw [hfind] at heval
        cases heval
      | some record =>
        rw [hfind] at heval
        exact (eval_resolve_iff.mp heval).2.1
  · split
    · exact ⟨_, faults, rfl, fun b hb => by cases hb⟩
    · exact ⟨_, faults, rfl, fun b hb => by cases hb⟩

/-- **What a call of `append_analysis_bundle` does**, whatever its statements are
made to raise: nothing, or it commits a new bundle. -/
theorem appendAnalysisBundle_exec (rt : Runtime) (d : Dialect) (sup : Supply) (scope : Scope)
    (receiptDraft : ReceiptDraft) (memoryDraft : MemoryDraft) (traces : List AnatomyTrace)
    (key requestDigest : PyStr) (createdAt : Option Stamp) (db : Db)
    (faults : List (Option Exn)) :
    ∃ r db' fs, (appendAnalysisBundle rt d sup scope receiptDraft memoryDraft traces key
        requestDigest createdAt).exec (engine d) (.idle db faults) = (r, .idle db' fs) ∧
      ((db' = db ∧ ∀ b, r = .ok b → b.idempotentReplay = true) ∨
        ∃ b ws rows, r = .ok b ∧ db' = (engine d).commit db ws ∧
          checkBundleArguments rt scope receiptDraft memoryDraft traces requestDigest = .ok () ∧
          NewBundle rt d sup scope receiptDraft memoryDraft traces (bundleKeyOf rt scope key)
            requestDigest (partitionDigestOf rt scope) (createdAt.getD (sup.now 0).stamp) db ws
            rows b) := by
  unfold appendAnalysisBundle bundleKeyOf partitionDigestOf
  cases hcheck : checkBundleArguments rt scope receiptDraft memoryDraft traces requestDigest with
  | error e => exact ⟨_, db, faults, rfl, .inl ⟨rfl, fun b hb => by cases hb⟩⟩
  | ok u =>
    cases hkey : idempotencyDigest rt scope key with
    | error e => exact ⟨_, db, faults, rfl, .inl ⟨rfl, fun b hb => by cases hb⟩⟩
    | ok keyDigest =>
      cases hpartition : enterpriseMemoryPartition rt scope with
      | error e => exact ⟨_, db, faults, rfl, .inl ⟨rfl, fun b hb => by cases hb⟩⟩
      | ok partitionDigest =>
        show ∃ r db' fs, ((transaction (appendAnalysisBundleBody rt d sup scope receiptDraft
          memoryDraft traces keyDigest requestDigest partitionDigest
          (createdAt.getD (sup.now 0).stamp))).tryCatch
          (bundleRecovery rt d sup scope keyDigest requestDigest)).exec (engine d)
          (.idle db faults) = (r, .idle db' fs) ∧ _
        rw [exec_tryCatch]
        rcases exec_transaction (engine d) (appendAnalysisBundleBody rt d sup scope receiptDraft
          memoryDraft traces keyDigest requestDigest partitionDigest
          (createdAt.getD (sup.now 0).stamp)) db faults with ⟨e, fs, hx⟩ | ⟨b, ws, fs, heval, hx⟩
        · rw [hx]
          obtain ⟨r, fs', hrec, hreplay⟩ := bundleRecovery_exec rt d sup scope keyDigest
            requestDigest db e fs
          exact ⟨r, db, fs', hrec, .inl ⟨rfl, hreplay⟩⟩
        · rw [hx]
          rcases eval_bundleBody_ok heval with ⟨rfl, hreplay, _⟩ | ⟨rows, hnew⟩
          · refine ⟨_, db, fs, rfl, .inl ⟨rfl, fun b' hb => ?_⟩⟩
            cases hb
            exact hreplay
          · exact ⟨_, _, fs, rfl, .inr ⟨b, ws, rows, rfl, rfl, rfl, hnew⟩⟩

end Call

/-! ## §6. A bundle that is not found again. -/

/-- A runtime whose digests tell the stages of the sample apart, by one byte. -/
def Runtime.terse : Runtime where
  sha256 bytes := List.replicate 63 97 ++ [hexDigit ((bytes.getD 169 0).toNat % 16)]
  floatRepr _ := [48]
  fromisoformat s :=
    match parseIso s with
    | some micros => .ok ⟨micros, some 0⟩
    | none => .error (.valueError [])
  fromisoformat_isoText t := by rw [parseIso_isoText t.nonneg t.le_max]; rfl
  intOfStr _ := none
  nfkc := id
  nfkc_ascii := Runtime.ascii.nfkc_ascii
  casefold := List.map asciiLower
  casefold_ascii := Runtime.ascii.casefold_ascii

def terseScope : Scope := ⟨⟨[116]⟩, ⟨[119]⟩⟩

def Supply.terse (tag : PyStr) : Supply where
  now _ := sampleInstant
  uuid i := tag ++ [48 + i]
  pickMemory := .first _

/-- A tenant and a workspace of one letter. -/
def terseSetup : List Issued := [
  ⟨⟨.createTenant ⟨[116], [116], terseScope.tenantId⟩, .terse [97], .terse [97]⟩, []⟩,
  ⟨⟨.createWorkspace ⟨terseScope.tenantId, [119], [119], terseScope.workspaceId⟩, .terse [98],
    .terse [98]⟩, []⟩]

end Lyte
