import Lyte.Persistence.Contracts

/-
  Lyte.Persistence.BundleContract — the contract of `append_analysis_bundle`.

  §1 follows the exceptions of the computations between statements: whatever is
  checked, encoded or digested raises a PersistenceError, or one of Python's
  own ValueError, OverflowError and TypeError.  §2 is the contract.
-/

namespace Lyte

open Transact HashChain

/-- One of Python's own errors. -/
def LocalError (e : Exn) : Prop := e.isLocalError = true

/-- One of Python's own errors, or a PersistenceError. -/
def LocalOrPersistence (e : Exn) : Prop := e.isLocalError = true ∨ e.isPersistenceError = true

variable {rt : Runtime} {d : Dialect} {sup : Supply}

/-! ## §1. What the computations raise. -/

theorem isoformatZ_raises (s : Stamp) : Raises LocalError (isoformatZ s) := by
  unfold isoformatZ
  split
  · exact raises_error rfl
  split
  · exact raises_ok _
  · exact raises_error rfl

theorem isoOrNull_raises (s : Option Stamp) : Raises LocalError (isoOrNull s) := by
  cases s with
  | none => exact raises_ok _
  | some s => exact (isoformatZ_raises s).map

theorem sha256Text_raises (text : PyStr) : Raises LocalError (sha256Text rt text) := by
  unfold sha256Text
  split
  · exact raises_ok _
  · exact raises_error rfl

theorem canonicalJson_raises (v : Json) : Raises LocalError (canonicalJson rt v) := by
  unfold canonicalJson
  split
  · exact raises_ok _
  · exact raises_error rfl

theorem sha256Json_raises (v : Json) : Raises LocalError (sha256Json rt v) :=
  (canonicalJson_raises v).bind (fun _ => sha256Text_raises _)

theorem partition_raises (scope : Scope) : Raises LocalError (enterpriseMemoryPartition rt scope) :=
  sha256Text_raises _

theorem idempotencyDigest_raises (scope : Scope) (key : PyStr) :
    Raises LocalError (idempotencyDigest rt scope key) := by
  unfold idempotencyDigest
  simp only
  split
  · exact raises_error rfl
  · exact sha256Text_raises _

theorem seal_raises (id schema : PyStr) (scope : Scope) (k : StreamKind) (sequence : Int)
    (previousHash : Option PyStr) (at_ : Stamp) (data : List (PyStr × Json)) :
    Raises LocalError
      (AppendOnlyMixin.seal rt id schema scope k sequence previousHash at_ data) := by
  unfold AppendOnlyMixin.seal basis
  refine ((isoformatZ_raises _).bind (fun _ => raises_ok _)).bind (fun _ => ?_)
  exact (sha256Json_raises _).bind (fun _ => raises_ok _)

section Rows

variable {id : PyStr} {scope : Scope} {sequence : Int} {previousHash : Option PyStr} {at_ : Stamp}

theorem receiptRow_raises (draft : ReceiptDraft) :
    Raises LocalError (receiptRow rt id scope draft sequence previousHash at_) :=
  (sha256Json_raises _).bind (fun _ => (seal_raises _ _ _ _ _ _ _ _).bind (fun _ => raises_ok _))

theorem idempotencyRow_raises (keyDigest requestDigest receiptHash : PyStr) :
    Raises LocalError (idempotencyRow rt id scope keyDigest requestDigest receiptHash sequence
      previousHash at_) :=
  (seal_raises _ _ _ _ _ _ _ _).bind (fun _ => raises_ok _)

theorem memoryRow_raises (draft : MemoryDraft) (partitionDigest receiptHash : PyStr)
    (refs : List PyStr) :
    Raises LocalError (memoryRow rt id scope draft partitionDigest refs receiptHash sequence
      previousHash at_) :=
  (seal_raises _ _ _ _ _ _ _ _).bind (fun _ => raises_ok _)

theorem anatomyRow_raises (trace : AnatomyTrace) :
    Raises LocalError (anatomyRow rt id scope trace sequence previousHash at_) := by
  refine Raises.bind ?_ (fun _ => (seal_raises _ _ _ _ _ _ _ _).bind (fun _ => raises_ok _))
  exact (isoformatZ_raises _).bind (fun _ => (isoOrNull_raises _).bind (fun _ => raises_ok _))

theorem traceRows_raises (traces : List AnatomyTrace) (i : Nat) (n : Int) (p : Option PyStr) :
    Raises LocalError (traceRows rt sup scope at_ traces i n p) := by
  induction traces generalizing i n p with
  | nil => exact raises_ok _
  | cons trace traces ih =>
    exact (anatomyRow_raises _).bind (fun _ => (ih _ _ _).bind (fun _ => raises_ok _))

theorem bundleRows_raises (receiptDraft : ReceiptDraft) (memoryDraft : MemoryDraft)
    (traces : List AnatomyTrace) (keyDigest requestDigest partitionDigest : PyStr)
    (receiptHead idempotencyHead memoryHead anatomyHead : StreamHeadRecord) :
    Raises LocalError (bundleRows rt sup scope receiptDraft memoryDraft traces keyDigest
      requestDigest partitionDigest at_ receiptHead idempotencyHead memoryHead anatomyHead) := by
  refine (receiptRow_raises _).bind (fun _ => (idempotencyRow_raises _ _ _).bind (fun _ => ?_))
  exact (memoryRow_raises _ _ _ _).bind (fun _ => (traceRows_raises _ _ _ _).bind
    (fun _ => raises_ok _))

end Rows

/-- Why `append_receipt` refuses its arguments, too, is one of Python's errors. -/
theorem ReceiptRefused.localError {scope : Scope} {draft : ReceiptDraft} {at_ : Stamp} {e : Exn}
    (h : ReceiptRefused rt sup scope draft at_ e) : LocalError e := by
  cases h with
  | digest h => exact sha256Json_raises _ e h
  | key h => exact idempotencyDigest_raises _ _ e h
  | row h => exact receiptRow_raises _ e h
  | keyRow h => exact idempotencyRow_raises _ _ _ e h

theorem pyInt_raises (v : Json) : Raises LocalError (pyInt rt v) := by
  unfold pyInt
  split
  · exact raises_ok _
  · exact raises_ok _
  · split
    · exact raises_ok _
    · exact raises_error rfl
    · exact raises_error rfl
  · split
    · exact raises_ok _
    · exact raises_error rfl
  · exact raises_error rfl

theorem mapM_raises {α β : Type} {f : α → Except Exn β} (h : ∀ a, Raises LocalError (f a))
    (as : List α) : Raises LocalError (as.mapM f) := by
  induction as with
  | nil => exact raises_ok _
  | cons a as ih =>
    rw [List.mapM_cons]
    exact (h a).bind (fun _ => ih.bind (fun _ => raises_ok _))

theorem checkBundleArguments_raises (scope : Scope) (receiptDraft : ReceiptDraft)
    (memoryDraft : MemoryDraft) (traces : List AnatomyTrace) (requestDigest : PyStr) :
    Raises LocalError (checkBundleArguments rt scope receiptDraft memoryDraft traces
      requestDigest) := by
  unfold checkBundleArguments
  refine raises_guard rfl (raises_guard rfl ?_)
  split
  · exact raises_error rfl
  · refine raises_guard rfl ?_
    refine (mapM_raises (fun _ => pyInt_raises _) _).bind (fun _ => ?_)
    refine raises_guard rfl (raises_guard rfl (raises_guard rfl ?_))
    refine raises_guard rfl (raises_guard rfl ?_)
    split
    · exact raises_error rfl
    · exact raises_ok _

/-- The text of a canonical timestamp is that of an instant. -/
theorem canonicalTimestamp_instant {s : Stamp} {text : PyStr}
    (h : canonicalTimestamp d s = .ok text) : ∃ t : Instant, text = isoText t.micros := by
  unfold canonicalTimestamp at h
  generalize (if s.offset.isNone && d == .sqlite then (⟨s.wall, some 0⟩ : Stamp) else s) = value at h
  simp only at h
  split at h
  · next text' hiso =>
    cases h
    unfold isoformatZ at hiso
    split at hiso
    · cases hiso
    split at hiso
    · next hrange =>
      cases hiso
      exact ⟨⟨_, hrange.1, hrange.2⟩, rfl⟩
    · cases hiso
  · split at h <;> cases h

theorem canonicalTimestamp_raises (s : Stamp) :
    Raises LocalOrPersistence (canonicalTimestamp d s) := by
  unfold canonicalTimestamp
  simp only
  split
  · exact raises_ok _
  · next e he =>
    split
    · exact raises_error (.inr rfl)
    · exact raises_error (.inl (isoformatZ_raises _ e he))

theorem canonicalProjectionValid_raises (m : AppendOnlyMixin) (scope : Scope) (schema : PyStr)
    (k : StreamKind) (data : List (PyStr × Json)) :
    Raises LocalOrPersistence (canonicalProjectionValid rt d m scope schema k data) := by
  intro e he
  unfold canonicalProjectionValid at he
  cases ht : canonicalTimestamp d m.createdAt with
  | error e' =>
    rw [ht] at he
    cases he
    exact canonicalTimestamp_raises _ e ht
  | ok text =>
    -- the text was made by `isoformat`, so that `fromisoformat` reads it back
    obtain ⟨t, rfl⟩ := canonicalTimestamp_instant ht
    rw [ht] at he
    simp only [bind, Except.bind, rt.fromisoformat_isoText] at he
    have hrest : Raises LocalError (do
        let expected ← basis schema scope k m.sequence m.previousHash t.stamp data
        if m.inScope scope && m.basisJson.pyEq expected then
          let digest ← sha256Json rt expected
          return digest == m.recordHash
        else return false) := by
      unfold basis
      refine ((isoformatZ_raises _).bind (fun _ => raises_ok _)).bind (fun _ => ?_)
      split
      · exact (sha256Json_raises _).bind (fun _ => raises_ok _)
      · exact raises_ok _
    exact .inl (hrest e he)

theorem validate_raises (m : AppendOnlyMixin) (scope : Scope) (schema : PyStr) (k : StreamKind)
    (data : List (PyStr × Json)) :
    Raises LocalOrPersistence (validateCanonicalProjection rt d m scope schema k data) := by
  unfold validateCanonicalProjection
  split
  · exact raises_ok _
  · exact raises_error (.inr rfl)
  · next e he =>
    split
    · exact raises_error (.inr rfl)
    · exact raises_error (canonicalProjectionValid_raises _ _ _ _ _ e he)

theorem validateTrace_raises (r : AnatomyTraceRecord) (scope : Scope) :
    Raises LocalOrPersistence (validateTrace rt d r scope) := by
  unfold validateTrace
  refine (canonicalTimestamp_raises _).bind (fun _ => ?_)
  cases r.completedAt with
  | none => exact (raises_ok _).bind (fun _ => validate_raises _ _ _ _ _)
  | some s => exact (canonicalTimestamp_raises _).map.bind (fun _ => validate_raises _ _ _ _ _)

theorem payloadTraceId_raises (receipt : ReceiptRecord) :
    Raises LocalOrPersistence (payloadTraceId receipt) := by
  unfold payloadTraceId
  split
  · exact raises_error (.inr rfl)
  split
  · exact raises_ok _
  · exact raises_error (.inr rfl)

theorem completeBundle_raises (traceId : PyStr) (memory : Option MemoryRecord)
    (traces : List AnatomyTraceRecord) :
    Raises LocalOrPersistence (completeBundle traceId memory traces) := by
  have hpersist : ∀ msg, LocalOrPersistence (.persistenceError msg) := fun _ => .inr rfl
  unfold completeBundle
  refine raises_guard (hpersist _) ?_
  cases memory with
  | none => exact raises_error (hpersist _)
  | some memory =>
    refine raises_guard (hpersist _) ?_
    split
    · exact raises_error (hpersist _)
    · exact raises_guard (hpersist _) (raises_ok _)

theorem pyIn_raises (text : PyStr) (v : Json) : Raises LocalError (pyIn text v) := by
  unfold pyIn
  split
  · exact raises_ok _
  · exact raises_ok _
  · exact raises_ok _
  · exact raises_error rfl

theorem bundleLinked_raises (scope : Scope) (receipt : ReceiptRecord)
    (payload : List (PyStr × Json)) (memory : MemoryRecord) (metadata : List (PyStr × Json))
    (traces : List AnatomyTraceRecord) (anatomyDigest : PyStr) :
    Raises LocalError
      (bundleLinked rt scope receipt payload memory metadata traces anatomyDigest) := by
  unfold bundleLinked
  split
  · exact raises_ok _
  split
  · exact raises_ok _
  split
  · exact raises_ok _
  refine (partition_raises scope).bind (fun _ => ?_)
  split
  · exact raises_ok _
  split
  · exact raises_ok _
  refine (pyIn_raises _ _).bind (fun _ => ?_)
  split
  · exact raises_ok _
  split
  · split
    · exact raises_ok _
    split
    · exact raises_ok _
    · exact raises_ok _
  · exact raises_ok _

theorem forM_raises {α : Type} {f : α → Except Exn Unit} (h : ∀ a, Raises LocalOrPersistence (f a))
    (as : List α) : Raises LocalOrPersistence (as.forM f) := by
  induction as with
  | nil => exact raises_ok _
  | cons a as ih => exact (h a).bind (fun _ => ih)

theorem checkBundle_raises (scope : Scope) (receipt : ReceiptRecord)
    (payload : List (PyStr × Json)) (traceId : PyStr) (memory : Option MemoryRecord)
    (traces : List AnatomyTraceRecord) (replay : Bool) :
    Raises LocalOrPersistence
      (checkBundle rt d scope receipt payload traceId memory traces replay) := by
  unfold checkBundle
  refine (completeBundle_raises _ _ _).bind (fun _ => ?_)
  refine (validate_raises _ _ _ _ _).bind (fun _ => ?_)
  refine (forM_raises (fun _ => validateTrace_raises _ _) _).bind (fun _ => ?_)
  refine ((sha256Json_raises _).imp (fun _ h => .inl h)).bind (fun _ => ?_)
  refine ((bundleLinked_raises _ _ _ _ _ _ _).imp (fun _ h => .inl h)).bind (fun _ => ?_)
  split
  · exact raises_error (.inr rfl)
  · exact raises_ok _

/-- A bundle that is checked is the one that was found. -/
theorem checkBundle_receipt {scope : Scope} {receipt : ReceiptRecord}
    {payload : List (PyStr × Json)} {traceId : PyStr} {memory : Option MemoryRecord}
    {traces : List AnatomyTraceRecord} {replay : Bool} {b : AnalysisBundle}
    (h : checkBundle rt d scope receipt payload traceId memory traces replay = .ok b) :
    b.receipt = receipt ∧ memory = some b.memory ∧ b.traces = traces ∧
      b.idempotentReplay = replay := by
  obtain ⟨⟨m, metadata⟩, hc, h⟩ := ok_of_bind h
  obtain ⟨_, _, h⟩ := ok_of_bind h
  obtain ⟨_, _, h⟩ := ok_of_bind h
  obtain ⟨_, _, h⟩ := ok_of_bind h
  obtain ⟨linked, _, h⟩ := ok_of_bind h
  obtain ⟨_, h⟩ := ok_of_guard h
  cases h
  refine ⟨rfl, ?_, rfl, rfl⟩
  unfold completeBundle at hc
  obtain ⟨_, hc⟩ := ok_of_guard hc
  cases memory with
  | none => cases hc
  | some memory =>
    obtain ⟨_, hc⟩ := ok_of_guard hc
    split at hc
    · cases hc
    · obtain ⟨_, hc⟩ := ok_of_guard hc
      cases hc
      rfl

/-! ## §2. The contract. -/

section Contract

variable {F : Exn → Prop} {G : Db → List Write → Prop} {X : Exn → Db → Prop} {db : Db}
variable {held : List RowLock} {scope : Scope} {requestDigest : PyStr}

/-- `_resolve_analysis_bundle` returns a receipt with the recorded hash. -/
theorem resolveAnalysisBundle_sat {record : IdempotencyRecord} {replay : Bool}
    {pending : List Write} {R : AnalysisBundle → Db → List Write → List RowLock → Prop}
    (h : ∀ db₁ db' b, Env (engine d) index G held db db₁ → Env (engine d) index G held db₁ db' →
      record.requestDigest = requestDigest →
      b.receipt ∈ ((engine d).view db₁ pending).receipts → b.receipt.inScope scope = true →
      b.receipt.recordHash = record.responseReceiptHash → b.idempotentReplay = replay →
      R b db' pending held)
    (hL : ∀ e, LocalOrPersistence e → ∀ db', X e db') (hX : ∀ e, F e → ∀ db', X e db') :
    (resolveAnalysisBundle rt d sup scope record requestDigest replay).Sat (engine d) index F G R X
      db pending held := by
  unfold resolveAnalysisBundle
  refine Body.sat_bind (Body.sat_ofExcept ?_ ?_)
  · intro _ _
    refine Body.sat_bind (resolveIdempotentReceipt_sat ?_ ?_ hX)
    · intro db₁ receipt henv₁ hrd hmem hin hhash
      refine Body.sat_bind (Body.sat_ofExcept ?_ ?_)
      · intro _ _
        refine Body.sat_bind (Body.sat_ofExcept ?_ ?_)
        · intro p _
          refine Body.sat_bind (Body.sat_select ?_ (fun e he db' _ => hX e he db'))
          intro db₂ henv₂
          refine Body.sat_bind (Body.sat_select ?_ (fun e he db' _ => hX e he db'))
          intro db₃ henv₃
          refine Body.sat_ofExcept ?_ ?_
          · intro b hb
            obtain ⟨hr, _, _, hrep⟩ := checkBundle_receipt hb
            exact h db₁ db₃ b henv₁ (henv₂.trans _ _ henv₃) hrd (hr ▸ hmem) (hr ▸ hin)
              (hr ▸ hhash) hrep
          · exact fun e he => hL e (checkBundle_raises _ _ _ _ _ _ _ e he) db₃
        · exact fun e he => hL e (payloadTraceId_raises _ e he) db₁
      · exact fun e he => hL e (validate_raises _ _ _ _ _ e he) db₁
    · exact fun e he db' => hL e (.inr he) db'
  · exact fun e he => hL e (validate_raises _ _ _ _ _ e he) db

section Append

variable {receiptDraft : ReceiptDraft} {memoryDraft : MemoryDraft} {traces : List AnatomyTrace}
variable {keyDigest partitionDigest : PyStr} {at_ : Stamp}

/-- What the committing call of a bundle returns. -/
def BundleCommitted (rt : Runtime) (sup : Supply) (scope : Scope) (receiptDraft : ReceiptDraft)
    (memoryDraft : MemoryDraft) (traces : List AnatomyTrace)
    (keyDigest requestDigest partitionDigest : PyStr) (at_ : Stamp) (db : Db) (ws : List Write)
    (b : AnalysisBundle) : Prop :=
  checkBundleArguments rt scope receiptDraft memoryDraft traces requestDigest = .ok () ∧
    ∃ rows, BundleCommit rt sup scope receiptDraft memoryDraft traces keyDigest requestDigest
        partitionDigest at_ db ws rows ∧
      b.receipt.recordHash = rows.receipt.recordHash ∧ b.receipt.inScope scope = true

/-- A bundle whose receipt the key table names for this request. -/
def BundleReplay (scope : Scope) (keyDigest requestDigest : PyStr) (b : AnalysisBundle)
    (db : Db) : Prop :=
  ReceiptReplay scope (some keyDigest) requestDigest b.receipt db

/-- The lookup of a key that was found. -/
theorem resolveBundle_replay {dbr : Db} {record : IdempotencyRecord} {replay : Bool}
    {Err : Exn → Prop} {R : AnalysisBundle → Db → List Write → List RowLock → Prop}
    (hrec : findIdempotency dbr scope keyDigest = some record)
    (hgrow : Env (engine d) index G held dbr db)
    (hR : ∀ b db' held, BundleReplay scope keyDigest requestDigest b db' → R b db' [] held)
    (hL : ∀ e, LocalOrPersistence e → Err e) (hF : ∀ e, F e → Err e) :
    (resolveAnalysisBundle rt d sup scope record requestDigest replay).Sat (engine d) index F G R
      (fun e _ => Err e) db [] held := by
  obtain ⟨hm, hs, hk⟩ := findIdempotency_some hrec
  refine resolveAnalysisBundle_sat ?_ (fun e he _ => hL e he) (fun e he _ => hF e he)
  intro db₁ db' b henv₁ henv hrd hmr hsr hh _
  refine hR _ _ _ ?_
  have hg := ((env_grows hgrow).trans (env_grows henv₁)).trans (env_grows henv)
  exact ⟨record, hg.idempotency.subset hm, hs, by rw [hk], hrd,
    (env_grows henv).receipts.subset hmr, hsr, hh⟩

theorem appendAnalysisBundleBody_sat {Err : Exn → Prop}
    (hcheck : checkBundleArguments rt scope receiptDraft memoryDraft traces requestDigest = .ok ())
    (hI : Err .integrityError)
    (hL : ∀ e, LocalOrPersistence e → Err e) (hF : ∀ e, F e → Err e) :
    (appendAnalysisBundleBody rt d sup scope receiptDraft memoryDraft traces keyDigest
      requestDigest partitionDigest at_).Sat (engine d) index F G
      (BodyPost (engine d) index G
        (BundleCommitted rt sup scope receiptDraft memoryDraft traces keyDigest requestDigest
          partitionDigest at_) (BundleReplay scope keyDigest requestDigest))
      (fun e _ => Err e) db [] [] := by
  have hX : ∀ e, F e → ∀ _ : Db, Err e := fun e he _ => hF e he
  have hmissing : ∀ msg, ∀ _ : Db, Err (.scopeNotFound msg) := fun _ _ => hL _ (.inr rfl)
  unfold appendAnalysisBundleBody
  refine Body.sat_bind (sat_assertScope ?_ (hmissing _) hX)
  intro db₁ _ hws
  refine Body.sat_bind (Body.sat_select ?_ (fun e he _ _ => hF e he))
  intro db₂ henv₂
  rw [Engine.view_nil]
  cases hrec : findIdempotency db₂ scope keyDigest with
  | some record => exact resolveBundle_replay hrec .refl (fun _ _ _ h => .inl ⟨rfl, h⟩) hL hF
  | none =>
    refine Body.sat_bind (sat_lockedHead ?_ (hmissing _) hX)
    intro db₃ receiptHead henv₃ hhead₃
    refine Body.sat_bind (sat_lockedHead ?_ (hmissing _) hX)
    intro db₄ idempotencyHead henv₄ hhead₄
    refine Body.sat_bind (sat_lockedHead ?_ (hmissing _) hX)
    intro db₅ memoryHead henv₅ hhead₅
    refine Body.sat_bind (sat_lockedHead ?_ (hmissing _) hX)
    intro db₆ anatomyHead henv₆ hhead₆
    refine Body.sat_bind (Body.sat_select ?_ (fun e he _ _ => hF e he))
    intro db₇ henv₇
    rw [Engine.view_nil]
    cases hrec' : findIdempotency db₇ scope keyDigest with
    | some record => exact resolveBundle_replay hrec' .refl (fun _ _ _ h => .inl ⟨rfl, h⟩) hL hF
    | none =>
      refine Body.sat_bind (Body.sat_ofExcept ?_ ?_)
      · intro rows hrows
        obtain ⟨hr, hi, hm, ht⟩ := bundleRows_ok hrows
        -- all four heads are locked, so that they are still where they were read
        have hreceipts := env_head henv₇ (by simp) (env_head henv₆ (by simp)
          (env_head henv₅ (by simp) (env_head henv₄ (by simp) hhead₃)))
        have hidempotency := env_head henv₇ (by simp) (env_head henv₆ (by simp)
          (env_head henv₅ (by simp) hhead₄))
        have hmemory := env_head henv₇ (by simp) (env_head henv₆ (by simp) hhead₅)
        have hanatomy := env_head henv₇ (by simp) hhead₆
        obtain ⟨hchain, _⟩ := traceRows_sealed ht
        obtain ⟨htip, hnames⟩ := headBehind_tip anatomyHead at_
          (rows.traces.map AnatomyTraceRecord.toAppendOnlyMixin)
        have hmix : (rows.traces.map Row.anatomy).map Row.mixin
            = rows.traces.map AnatomyTraceRecord.toAppendOnlyMixin := by simp [Function.comp_def]
        refine Body.sat_bind (sat_flush_append rt scope
          [(.receipts, _), (.idempotency, _), (.memory, _), (.anatomy, _)] ?_ ?_ ?_
          (fun _ => hI) hX)
        · simp only [List.mem_cons, List.not_mem_nil, or_false]
          rintro p (rfl | rfl | rfl | rfl)
          · exact ⟨_, extends_one rfl hreceipts (receiptRow_sealed hr)⟩
          · exact ⟨_, extends_one rfl hidempotency (idempotencyRow_sealed hi)⟩
          · exact ⟨_, extends_one rfl hmemory (memoryRow_sealed hm)⟩
          · refine ⟨anatomyHead, ?_, ?_, ?_, ?_⟩
            · intro r hr
              obtain ⟨o, _, rfl⟩ := List.mem_map.mp hr
              rfl
            · rw [hmix]
              exact hchain
            · exact (hnames _ _ _).trans (names_of_head? hanatomy)
            · rw [hmix]
              exact htip
        · simp
        · intro db₈ henv₈
          refine resolveAnalysisBundle_sat ?_ (fun e he _ => hL e he) hX
          intro db₉ db₁₀ b henv₉ henv₁₀ _ _ hin hhash _
          refine .inr ?_
          intro db' henv' _
          have henv := ((henv₈.trans _ _ henv₉).trans _ _ henv₁₀).trans _ _ henv'
          have hg := (env_grows henv₂).trans ((env_grows henv₃).trans ((env_grows henv₄).trans
            ((env_grows henv₅).trans ((env_grows henv₆).trans ((env_grows henv₇).trans
              (env_grows henv))))))
          refine ⟨hcheck, rows, .mk (hws.grows hg) (env_head henv (by simp) hreceipts)
            (env_head henv (by simp) hidempotency) (env_head henv (by simp) hmemory)
            (env_head henv (by simp) hanatomy) hrows, ?_, hin⟩
          rw [hhash]
          obtain ⟨_, _, he⟩ := idempotencyRow_ok hi
          rw [he]
      · exact fun e he => hL e (.inl (bundleRows_raises _ _ _ _ _ _ _ _ _ _ e he))

theorem recoverBundle_sat {Err : Exn → Prop} (hL : ∀ e, LocalOrPersistence e → Err e)
    (hF : ∀ e, F e → Err e) :
    (recoverBundle rt d sup scope keyDigest requestDigest).Sat (engine d) index F G
      (fun b db _ _ => BundleReplay scope keyDigest requestDigest b db) (fun e _ => Err e)
      db [] [] := by
  unfold recoverBundle
  refine Body.sat_bind (Body.sat_select ?_ (fun e he _ _ => hF e he))
  intro db₁ _
  rw [Engine.view_nil]
  cases hrec : findIdempotency db₁ scope keyDigest with
  | none => exact hL _ (.inr rfl)
  | some record => exact resolveBundle_replay hrec .refl (fun _ _ _ h => h) hL hF

/-- The key digest of a bundle. -/
def bundleKeyOf (rt : Runtime) (scope : Scope) (key : PyStr) : PyStr :=
  match idempotencyDigest rt scope key with
  | .ok kd => kd
  | .error _ => []

/-- **`append_analysis_bundle`** fails without effect, returns a bundle of the
receipt its key names, or commits its rows. -/
theorem appendAnalysisBundle_sat {key : PyStr} {createdAt : Option Stamp}
    (hG : ∀ db ws b, KeyOk rt scope (some key) ∧ BundleCommitted rt sup scope receiptDraft
      memoryDraft traces (bundleKeyOf rt scope key) requestDigest (partitionDigestOf rt scope)
      (createdAt.getD (sup.now 0).stamp) db ws b → index.Fresh db ws → G db ws)
    (hnil : ∀ db, G db []) :
    Sat (engine d) index F G
      (Outcome (engine d) index G
        (fun db ws b => KeyOk rt scope (some key) ∧ BundleCommitted rt sup scope receiptDraft
          memoryDraft traces (bundleKeyOf rt scope key) requestDigest (partitionDigestOf rt scope)
          (createdAt.getD (sup.now 0).stamp) db ws b)
        (fun b db => KeyOk rt scope (some key) ∧
          BundleReplay scope (bundleKeyOf rt scope key) requestDigest b db)
        (Failure F LocalError))
      (appendAnalysisBundle rt d sup scope receiptDraft memoryDraft traces key requestDigest
        createdAt) db [] [] [] := by
  have hP : ∀ (a : AnalysisBundle) (db db' : Db) (held : List RowLock),
      KeyOk rt scope (some key) ∧ BundleReplay scope (bundleKeyOf rt scope key) requestDigest a db →
      Env (engine d) index G held db db' →
      KeyOk rt scope (some key) ∧
        BundleReplay scope (bundleKeyOf rt scope key) requestDigest a db' := by
    intro a db db' held h henv
    exact ⟨h.1, ReceiptReplay.grows h.2 (env_grows henv)⟩
  have hL : ∀ e, LocalOrPersistence e → Failure F LocalError e := by
    rintro e (he | he)
    · exact .inr (.inr he)
    · exact .inr (.inl he)
  unfold appendAnalysisBundle
  refine sat_ofExcept_bind ?_ (fun e he => .inr (.inr (checkBundleArguments_raises _ _ _ _ _ e he)))
  intro _ hcheck
  refine sat_ofExcept_bind ?_ (fun e he => .inr (.inr (idempotencyDigest_raises _ _ e he)))
  intro kd hkd
  have hkd' : bundleKeyOf rt scope key = kd := by simp [bundleKeyOf, hkd]
  have hok : KeyOk rt scope (some key) := by
    rintro k ⟨⟩
    exact ⟨kd, hkd⟩
  refine sat_ofExcept_bind ?_ (fun e he => .inr (.inr (partition_raises _ e he)))
  intro digest hdigest
  have hd' : partitionDigestOf rt scope = digest := by simp [partitionDigestOf, hdigest]
  rw [hkd', hd'] at hG
  rw [hkd'] at hP
  rw [hkd', hd']
  refine sat_tryCatch_outcome (fun e => e = .integrityError ∨ Failure F LocalError e)
    (sat_transaction_outcome ((appendAnalysisBundleBody_sat hcheck (.inl rfl)
      (fun e he => .inr (hL e he)) (fun e he => .inr (.inl he))).imp ?_ (fun _ _ h => h))
      (fun e he => .inr (.inl he)) hG hnil hP) ?_ hP
  · rintro b db pending held (⟨hp, h⟩ | h)
    · exact .inl ⟨hp, hok, h⟩
    · exact .inr (fun db' henv hf => ⟨hok, h db' henv hf⟩)
  intro e db' he
  unfold bundleRecovery
  split
  · refine sat_tryCatch_outcome (Failure F LocalError) (sat_readSession_outcome
      ((recoverBundle_sat hL (fun e he => .inl he)).imp (fun _ _ _ _ h => ⟨hok, h⟩)
        (fun _ _ h => h)) hP) ?_ hP
    intro e' db'' he'
    split
    · exact sat_raise_outcome (.inr (.inl rfl))
    · exact sat_raise_outcome he'
  next hne =>
  split
  · exact sat_raise_outcome (.inr (.inl rfl))
  · refine sat_raise_outcome (he.resolve_left ?_)
    rintro rfl
    exact hne rfl

end Append

end Contract

end Lyte
