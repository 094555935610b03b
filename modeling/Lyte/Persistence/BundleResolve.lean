import Lyte.Persistence.Agreement
import Lyte.Persistence.Idempotency

/-
  Lyte.Persistence.BundleResolve — what `_resolve_analysis_bundle` accepts.

  §1 says what the columns give back of a record, §2 turns the resolver into a
  statement about what its lookups find (`Resolved`), and §3 follows the checks
  of a record from the one that was written to the one that is read back: they
  agree on a datetime that survives its column, and on no other
  (`validate_stored`, `survives_of_validate`).
-/

namespace Lyte

open Transact HashChain

/-! ## §1. Records as their columns give them back. -/

def ReceiptRecord.stored (d : Dialect) (r : ReceiptRecord) : ReceiptRecord :=
  { r with createdAt := d.stamp r.createdAt }

def IdempotencyRecord.stored (d : Dialect) (r : IdempotencyRecord) : IdempotencyRecord :=
  { r with createdAt := d.stamp r.createdAt }

def MemoryRecord.stored (d : Dialect) (r : MemoryRecord) : MemoryRecord :=
  { r with createdAt := d.stamp r.createdAt }

def AnatomyTraceRecord.stored (d : Dialect) (r : AnatomyTraceRecord) : AnatomyTraceRecord :=
  { r with
    createdAt := d.stamp r.createdAt
    startedAt := d.stamp r.startedAt
    completedAt := r.completedAt.map d.stamp }

def AnalysisBundle.stored (d : Dialect) (b : AnalysisBundle) : AnalysisBundle :=
  ⟨b.receipt.stored d, b.memory.stored d, b.traces.map (AnatomyTraceRecord.stored d),
    b.idempotentReplay⟩

def BundleRows.stored (d : Dialect) (r : BundleRows) : BundleRows :=
  ⟨r.receipt.stored d, r.idempotency.stored d, r.memory.stored d,
    r.traces.map (AnatomyTraceRecord.stored d)⟩

variable {rt : Runtime} {d : Dialect} {sup : Supply} {scope : Scope}

/-! ## §2. The resolver. -/

/-- The checks of a bundle on what was found. -/
structure Checked (rt : Runtime) (d : Dialect) (scope : Scope) (receipt : ReceiptRecord)
    (payload : List (PyStr × Json)) (traceId : PyStr) (memory : MemoryRecord)
    (traces : List AnatomyTraceRecord) : Prop where
  memoryValid : validateMemory rt d memory scope = .ok ()
  tracesValid : ∀ t ∈ traces, validateTrace rt d t scope = .ok ()
  linked : ∃ metadata digest, completeBundle traceId (some memory) traces = .ok (memory, metadata) ∧
    sha256Json rt (.list (traces.map stageBasis)) = .ok digest ∧
    bundleLinked rt scope receipt payload memory metadata traces digest = .ok true

theorem forM_ok {α : Type} {f : α → Except Exn Unit} {as : List α} :
    as.forM f = .ok () ↔ ∀ a ∈ as, f a = .ok () := by
  induction as with
  | nil => simp [List.forM_nil, pure, Except.pure]
  | cons a as ih =>
    have hcons : (a :: as).forM f = (f a >>= fun _ => as.forM f) := rfl
    rw [hcons]
    constructor
    · intro h
      obtain ⟨_, ha, h⟩ := ok_of_bind h
      intro b hb
      rcases List.mem_cons.mp hb with rfl | hb
      · exact ha
      · exact ih.mp h b hb
    · intro h
      rw [h a List.mem_cons_self]
      exact ih.mpr (fun b hb => h b (List.mem_cons_of_mem _ hb))

/-- The first stage has no parent. -/
def rootStage (traces : List AnatomyTraceRecord) : Bool :=
  match traces with
  | [] => false
  | first :: _ => first.parentSpanId.isNone

/-- **A complete bundle.** -/
structure Complete (traceId : PyStr) (memory : MemoryRecord) (metadata : List (PyStr × Json))
    (traces : List AnatomyTraceRecord) : Prop where
  attributes : traces.any (fun t => (dictFields t.attributesJson).isNone) = false
  nine : traces.length = 9
  sequences : stageSequences traces = true
  root : rootStage traces = true
  linked : stagesLinked traces = true
  fields : dictFields memory.metadataJson = some metadata
  named : (Json.get metadata (py "trace_id")).pyEq (.str traceId) = true

theorem completeBundle_iff {traceId : PyStr} {memory : Option MemoryRecord}
    {traces : List AnatomyTraceRecord} {m : MemoryRecord} {metadata : List (PyStr × Json)} :
    completeBundle traceId memory traces = .ok (m, metadata) ↔
      memory = some m ∧ Complete traceId m metadata traces := by
  constructor
  · intro h
    unfold completeBundle at h
    obtain ⟨hattributes, h⟩ := ok_of_guard h
    cases memory with
    | none => cases h
    | some memory =>
      obtain ⟨hstages, h⟩ := ok_of_guard h
      cases hfields : dictFields memory.metadataJson with
      | none =>
        rw [hfields] at h
        cases h
      | some fields =>
        rw [hfields] at h
        obtain ⟨hnamed, h⟩ := ok_of_guard h
        cases h
        simp only [Bool.or_eq_true, decide_eq_true_eq, not_or, not_not, Bool.not_eq_true',
          Bool.not_eq_false, Bool.and_eq_true] at hstages hnamed
        exact ⟨rfl, by simpa using hattributes, hstages.1.1, hstages.1.2, hstages.2.1,
          hstages.2.2, hfields, hnamed⟩
  · rintro ⟨rfl, h⟩
    unfold completeBundle
    cases traces with
    | nil => cases h.nine
    | cons first rest =>
      have hroot : first.parentSpanId.isNone = true := h.root
      simp only [h.attributes, h.nine, h.sequences, h.linked, h.fields, h.named, hroot]
      rfl

/-- **What `checkBundle` accepts.** -/
theorem checkBundle_iff {receipt : ReceiptRecord} {payload : List (PyStr × Json)}
    {traceId : PyStr} {memory : Option MemoryRecord} {traces : List AnatomyTraceRecord}
    {replay : Bool} {b : AnalysisBundle} :
    checkBundle rt d scope receipt payload traceId memory traces replay = .ok b ↔
      ∃ m, memory = some m ∧ Checked rt d scope receipt payload traceId m traces ∧
        b = ⟨receipt, m, traces, replay⟩ := by
  constructor
  · intro h
    obtain ⟨⟨m, metadata⟩, hc, h⟩ := ok_of_bind h
    obtain ⟨_, hm, h⟩ := ok_of_bind h
    obtain ⟨_, ht, h⟩ := ok_of_bind h
    obtain ⟨digest, hd, h⟩ := ok_of_bind h
    obtain ⟨linked, hl, h⟩ := ok_of_bind h
    obtain ⟨hlinked, h⟩ := ok_of_guard h
    cases h
    obtain ⟨rfl, _⟩ := completeBundle_iff.mp hc
    have htrue : linked = true := by simpa using hlinked
    rw [htrue] at hl
    exact ⟨m, rfl, ⟨hm, forM_ok.mp ht, metadata, digest, hc, hd, hl⟩, rfl⟩
  · rintro ⟨m, rfl, ⟨hm, ht, metadata, digest, hc, hd, hl⟩, rfl⟩
    unfold checkBundle
    rw [hc]
    show (do validateMemory rt d m scope; _) = _
    rw [hm]
    show (do traces.forM (fun t => validateTrace rt d t scope); _) = _
    rw [forM_ok.mpr ht]
    show (do let digest ← sha256Json rt (.list (traces.map stageBasis)); _) = _
    rw [hd]
    show (do let linked ← bundleLinked rt scope receipt payload m metadata traces digest; _) = _
    rw [hl]
    rfl

/-- **What `_resolve_analysis_bundle` finds** in a database. -/
structure Resolved (rt : Runtime) (d : Dialect) (sup : Supply) (scope : Scope)
    (record : IdempotencyRecord) (requestDigest : PyStr) (db : Db) (b : AnalysisBundle) :
    Prop where
  keyValid : validateIdempotency rt d record scope = .ok ()
  digest : record.requestDigest = requestDigest
  receipt : findReceipt db scope record.responseReceiptHash = some b.receipt
  receiptValid : validateReceipt rt d b.receipt scope = .ok ()
  checked : ∃ payload traceId, payloadTraceId b.receipt = .ok (payload, traceId) ∧
    sup.pickMemory.choose (findMemory db scope b.receipt.recordHash) = some b.memory ∧
    findTraces db scope traceId = b.traces ∧
    Checked rt d scope b.receipt payload traceId b.memory b.traces

/-- `_resolve_idempotent_receipt`, as a statement about the receipts it sees. -/
theorem eval_resolveReceipt_iff {record : IdempotencyRecord} {requestDigest : PyStr} {db : Db}
    {pending rows : List Write} {r : ReceiptRecord} :
    (resolveIdempotentReceipt scope record requestDigest).eval (engine d) db pending
        = .ok (r, rows) ↔
      rows = pending ∧ record.requestDigest = requestDigest ∧
        findReceipt ((engine d).view db pending) scope record.responseReceiptHash = some r := by
  unfold resolveIdempotentReceipt
  split
  · next hdigest => simp [hdigest]
  next hdigest =>
  rw [not_not] at hdigest
  rw [Body.bind_eq, eval_select_bind]
  cases findReceipt ((engine d).view db pending) scope record.responseReceiptHash with
  | none => simp
  | some x =>
    show (Except.ok (x, pending) : Except Exn _) = .ok (r, rows) ↔ _
    simp only [Except.ok.injEq, Prod.mk.injEq, hdigest, true_and, Option.some.injEq]
    exact ⟨fun h => ⟨h.2.symm, h.1⟩, fun h => ⟨h.2, h.1.symm⟩⟩

/-- **The resolver, as a statement about the rows it sees.** -/
theorem eval_resolve_iff {record : IdempotencyRecord} {requestDigest : PyStr} {replay : Bool}
    {db : Db} {pending rows : List Write} {b : AnalysisBundle} :
    (resolveAnalysisBundle rt d sup scope record requestDigest replay).eval (engine d) db pending
        = .ok (b, rows) ↔
      rows = pending ∧ b.idempotentReplay = replay ∧
        Resolved rt d sup scope record requestDigest ((engine d).view db pending) b := by
  unfold resolveAnalysisBundle
  simp only [Body.bind_eq]
  constructor
  · intro h
    obtain ⟨_, _, hk, h₁⟩ := eval_bind_ok _ h
    obtain ⟨hkey, rfl⟩ := eval_ofExcept_ok _ hk
    obtain ⟨receipt, _, hr, h₂⟩ := eval_bind_ok _ h₁
    obtain ⟨rfl, hdigest, hfind⟩ := eval_resolveReceipt_iff.mp hr
    obtain ⟨_, _, hv, h₃⟩ := eval_bind_ok _ h₂
    obtain ⟨hvalid, rfl⟩ := eval_ofExcept_ok _ hv
    obtain ⟨⟨payload, traceId⟩, _, hp, h₄⟩ := eval_bind_ok _ h₃
    obtain ⟨hpayload, rfl⟩ := eval_ofExcept_ok _ hp
    obtain ⟨hcheck, rfl⟩ := eval_ofExcept_ok _ h₄
    obtain ⟨m, hm, hchecked, rfl⟩ := checkBundle_iff.mp hcheck
    exact ⟨rfl, rfl, hkey, hdigest, hfind, hvalid, payload, traceId, hpayload, hm, rfl, hchecked⟩
  · obtain ⟨receipt, memory, traces, replay'⟩ := b
    rintro ⟨rfl, rfl, hkey, hdigest, hfind, hvalid, payload, traceId, hpayload, hm, ht, hchecked⟩
    simp only at hfind hvalid hpayload hm ht hchecked
    have hcheck : checkBundle rt d scope receipt payload traceId
        (sup.pickMemory.choose (findMemory ((engine d).view db rows) scope receipt.recordHash))
        (findTraces ((engine d).view db rows) scope traceId) replay'
          = .ok ⟨receipt, memory, traces, replay'⟩ := by
      rw [hm, ht]
      exact checkBundle_iff.mpr ⟨memory, rfl, hchecked, rfl⟩
    rw [eval_bind, hkey]
    show Body.eval (engine d) ((resolveIdempotentReceipt scope record requestDigest).bind _) db rows = _
    rw [eval_bind, eval_resolveReceipt_iff.mpr ⟨rfl, hdigest, hfind⟩]
    show Body.eval (engine d) ((Body.ofExcept (validateReceipt rt d receipt scope)).bind _) db rows = _
    rw [hvalid]
    show Body.eval (engine d) ((Body.ofExcept (payloadTraceId receipt)).bind _) db rows = _
    rw [hpayload]
    show Body.eval (engine d) (Body.ofExcept (checkBundle rt d scope receipt payload traceId
      (sup.pickMemory.choose (findMemory ((engine d).view db rows) scope receipt.recordHash))
      (findTraces ((engine d).view db rows) scope traceId) replay')) db rows = _
    rw [hcheck]
    rfl

/-! ## §3. Datetimes that are read back. -/

theorem canonicalTimestamp_aware {s : Stamp} {text : PyStr} (h : isoformatZ s = .ok text) :
    canonicalTimestamp d s = .ok text := by
  obtain ⟨wall, offset⟩ := s
  cases offset with
  | none => cases h
  | some o =>
    unfold canonicalTimestamp
    simp only [Option.isNone_some, Bool.false_and, Bool.false_eq_true, if_false]
    rw [h]

theorem canonicalTimestamp_stored {s : Stamp} {text : PyStr} (hs : Survives d s)
    (h : isoformatZ s = .ok text) : canonicalTimestamp d (d.stamp s) = .ok text := by
  have hread := timestamp_stored hs h
  obtain ⟨wall, offset⟩ := s
  cases offset with
  | none => cases h
  | some o =>
    cases d with
    | postgresql => exact canonicalTimestamp_aware hread
    | sqlite =>
      rcases hs with hs | hs
      · cases hs
      · cases hs
        show canonicalTimestamp .sqlite ⟨wall, some 0⟩ = _
        exact canonicalTimestamp_aware h

section Records

variable {schema : PyStr} {k : StreamKind} {data : List (PyStr × Json)} {m : AppendOnlyMixin}

/-- **A record is read back as it was written, if its time survives.** -/
theorem validate_stored {text : PyStr} (hs : Survives d m.createdAt)
    (ht : isoformatZ m.createdAt = .ok text) :
    validateCanonicalProjection rt d (m.stored d) scope schema k data
      = validateCanonicalProjection rt d m scope schema k data := by
  unfold validateCanonicalProjection canonicalProjectionValid
  have hsame : canonicalTimestamp d (m.stored d).createdAt = canonicalTimestamp d m.createdAt := by
    show canonicalTimestamp d (d.stamp m.createdAt) = _
    rw [canonicalTimestamp_stored hs ht, canonicalTimestamp_aware ht]
  rw [hsame]
  rfl

end Records

/-! ## §5. The other checks look at no datetime. -/

theorem stagesLinked_stored (traces : List AnatomyTraceRecord) :
    stagesLinked (traces.map (AnatomyTraceRecord.stored d)) = stagesLinked traces := by
  induction traces with
  | nil => rfl
  | cons t traces ih =>
    cases traces with
    | nil => rfl
    | cons t' traces =>
      simp only [List.map_cons, stagesLinked] at ih ⊢
      rw [ih]
      rfl

theorem stageSequences_stored (traces : List AnatomyTraceRecord) :
    stageSequences (traces.map (AnatomyTraceRecord.stored d)) = stageSequences traces := by
  unfold stageSequences
  rw [List.map_map]
  rfl

theorem stageBasis_stored (traces : List AnatomyTraceRecord) :
    (traces.map (AnatomyTraceRecord.stored d)).map stageBasis = traces.map stageBasis := by
  rw [List.map_map]
  rfl

theorem rootStage_stored (traces : List AnatomyTraceRecord) :
    rootStage (traces.map (AnatomyTraceRecord.stored d)) = rootStage traces := by
  cases traces <;> rfl

theorem completeBundle_stored {traceId : PyStr} {m : MemoryRecord}
    {traces : List AnatomyTraceRecord} {metadata : List (PyStr × Json)} :
    completeBundle traceId (some (m.stored d)) (traces.map (AnatomyTraceRecord.stored d))
        = .ok (m.stored d, metadata) ↔
      completeBundle traceId (some m) traces = .ok (m, metadata) := by
  have hany : (traces.map (AnatomyTraceRecord.stored d)).any
      (fun t => (dictFields t.attributesJson).isNone)
      = traces.any (fun t => (dictFields t.attributesJson).isNone) := by
    rw [List.any_map]
    rfl
  rw [completeBundle_iff, completeBundle_iff]
  constructor
  · rintro ⟨_, h⟩
    exact ⟨rfl, hany ▸ h.attributes, by simpa using h.nine, stageSequences_stored _ ▸ h.sequences,
      rootStage_stored _ ▸ h.root, stagesLinked_stored _ ▸ h.linked, h.fields, h.named⟩
  · rintro ⟨_, h⟩
    exact ⟨rfl, hany.trans h.attributes, by simpa using h.nine,
      (stageSequences_stored _).trans h.sequences, (rootStage_stored _).trans h.root,
      (stagesLinked_stored _).trans h.linked, h.fields, h.named⟩

theorem bundleLinked_stored {receipt : ReceiptRecord} {payload : List (PyStr × Json)}
    {m : MemoryRecord} {metadata : List (PyStr × Json)} {traces : List AnatomyTraceRecord}
    {digest : PyStr} :
    bundleLinked rt scope (receipt.stored d) payload (m.stored d) metadata
        (traces.map (AnatomyTraceRecord.stored d)) digest
      = bundleLinked rt scope receipt payload m metadata traces digest := by
  have hhead : (traces.map (AnatomyTraceRecord.stored d)).head?.bind AnatomyTraceRecord.inputSha256
      = traces.head?.bind AnatomyTraceRecord.inputSha256 := by
    cases traces <;> rfl
  unfold bundleLinked
  rw [hhead]
  simp only [List.all_map]
  rfl

/-- **A checked bundle is checked again when it is read back**, as far as its
records are. -/
theorem Checked.stored {receipt : ReceiptRecord} {payload : List (PyStr × Json)} {traceId : PyStr}
    {m : MemoryRecord} {traces : List AnatomyTraceRecord}
    (h : Checked rt d scope receipt payload traceId m traces)
    (hm : validateMemory rt d (m.stored d) scope = .ok ())
    (ht : ∀ t ∈ traces, validateTrace rt d (t.stored d) scope = .ok ()) :
    Checked rt d scope (receipt.stored d) payload traceId (m.stored d)
      (traces.map (AnatomyTraceRecord.stored d)) := by
  obtain ⟨metadata, digest, hc, hd, hl⟩ := h.linked
  refine ⟨hm, ?_, metadata, digest, completeBundle_stored.mpr hc, ?_, ?_⟩
  · intro t hmem
    obtain ⟨t', ht', rfl⟩ := List.mem_map.mp hmem
    exact ht t' ht'
  · rw [stageBasis_stored]
    exact hd
  · rw [bundleLinked_stored]
    exact hl

end Lyte
