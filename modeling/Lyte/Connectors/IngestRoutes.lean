import Lyte.Connectors.OtlpRecords
import Lyte.Connectors.OtlpAdmission
import Lyte.Persistence.BatchUpsert

/-
  Lyte.Connectors.IngestRoutes — the record that an ingest route keeps.

  `ingest_otlp` makes a draft of the whole batch, named by the digest of the document:

      otlp_projection_admitted   the draft of an accepted export is never refused.

  `_persist_projection` reads the latest version of an entity and appends another one
  only if its body differs.  Where another request was first, the conflict is answered
  from a second look.  Whatever else happens at the same time:

      persistProjection_sat      it fails without effect, answers a version with the
                                 body it was given, or commits one behind a version
                                 with another body,
      projection_written_once    so requests with one body write one version of it.
-/

namespace Lyte

open Transact HashChain Search OtlpJsonIngestor

/-! ## §1. The record of an export. -/

/-- The metadata of the record that `ingest_otlp` keeps. -/
def otlpMetadata : JsonDict := .ofPresent [
    (py "durable", some (.bool true)),
    (py "bounded_subset", some (.str (py "scalar_v1")))] (by
      simp only [List.map_cons, List.map_nil]
      decide +kernel)

/-- `ingest_otlp`: the record of an export, which cites the receipt `recordHash`. -/
def otlpProjection (rt : Runtime) (batch : OtlpIngestBatch) (recordHash : PyStr) :
    Except Exn OperationalRecordDraft := do
  let body ← batch.toDict rt
  OperationalRecordDraft.new rt .telemetryWindow (py "otlp:" ++ batch.idempotency.payloadSha256)
    (py "OTLP " ++ batch.signal.value ++ py " ingest") body batch.receipt.truthLabel [recordHash]
    none none otlpMetadata

/-! ## §2. It is admitted. -/

theorem IdempotencyClaim.new_hex {key sha : PyStr} {i : IdempotencyClaim}
    (h : IdempotencyClaim.new key sha = .ok i) : isSha256Hex sha = true := by
  unfold IdempotencyClaim.new at h
  by_cases hkey : (!isIdempotencyKey key) = true
  · rw [if_pos hkey] at h
    cases h
  · rw [if_neg hkey] at h
    by_cases hsha : (!isSha256Hex sha) = true
    · rw [if_pos hsha] at h
      cases h
    · simpa using hsha

theorem isSafeChar_of_hex {c : Nat} (h : isLowerHex c = true) : isSafeChar c = true := by
  simp only [isLowerHex, isSafeChar, isAlnum, isUpper, isLower, isDigit, Bool.or_eq_true,
    Bool.and_eq_true, decide_eq_true_eq] at h ⊢
  omega

theorem isSha256Hex_safe {s : PyStr} (h : isSha256Hex s = true) :
    s.length = 64 ∧ ∀ c ∈ s, isSafeChar c = true := by
  unfold isSha256Hex at h
  rw [Bool.and_eq_true, beq_iff_eq, List.all_eq_true] at h
  exact ⟨h.1, fun c hc => isSafeChar_of_hex (h.2 c hc)⟩

theorem strip_safe {s : PyStr} (h : ∀ c ∈ s, isSafeChar c = true) : strip s = s :=
  strip_of_forall (fun c hc => isSpaceChar_safe (h c hc))

theorem cleanRefs_digest {s : PyStr} (h : isSha256Hex s = true) : cleanRefs [s] = [s] := by
  obtain ⟨hlength, hsafe⟩ := isSha256Hex_safe h
  have hstrip : strip s = s := strip_safe hsafe
  have hne : s ≠ [] := by
    intro hnil
    rw [hnil] at hlength
    cases hlength
  simp [cleanRefs, fromkeys, hstrip, hne]

/-- The identifier of the record names the document, and `entity_id` admits it. -/
theorem otlpEntityId_ok {sha : PyStr} (h : isSha256Hex sha = true) :
    strip (py "otlp:" ++ sha) = py "otlp:" ++ sha ∧ isIdentifier (py "otlp:" ++ sha) = true := by
  obtain ⟨hlength, hsafe⟩ := isSha256Hex_safe h
  have hhead : ∀ c ∈ py "otlp:", isSafeChar c = true := by decide +kernel
  have hchars : ∀ c ∈ py "otlp:" ++ sha, isSafeChar c = true := by
    intro c hc
    rcases List.mem_append.mp hc with hc | hc
    · exact hhead c hc
    · exact hsafe c hc
  refine ⟨strip_safe hchars, ?_⟩
  -- the first character is the `o` of the prefix
  show (isAlnum 111 && decide ((py "tlp:" ++ sha).length ≤ 255) && (py "tlp:" ++ sha).all _) = true
  rw [Bool.and_eq_true, Bool.and_eq_true, decide_eq_true_eq, List.all_eq_true]
  refine ⟨⟨by decide, ?_⟩, fun c hc => ?_⟩
  · rw [List.length_append, hlength]
    decide +kernel
  · have hchar := hchars c (List.mem_cons_of_mem 111 hc)
    simp only [isSafeChar, Bool.or_eq_true, beq_iff_eq] at hchar ⊢
    tauto

theorem ReceiptDraft.new_label {rt : Runtime} {kind subjectType subjectId : PyStr}
    {payload : JsonDict} {truthLabel : TruthLabel} {evidenceRefs : List PyStr}
    {draft : ReceiptDraft}
    (h : ReceiptDraft.new rt kind subjectType subjectId payload truthLabel evidenceRefs =
      .ok draft) :
    draft.truthLabel = truthLabel := by
  unfold ReceiptDraft.new at h
  obtain ⟨_, _, h⟩ := ok_of_bind h
  obtain ⟨_, _, h⟩ := ok_of_bind h
  obtain ⟨_, h⟩ := ok_of_guard h
  obtain ⟨_, _, h⟩ := ok_of_bind h
  obtain ⟨_, _, h⟩ := ok_of_bind h
  cases h
  rfl

theorem otlpMetadata_storable (rt : Runtime) : Storable rt otlpMetadata.json := by
  refine storable_ofPresent (by simp only [List.map_cons, List.map_nil]; decide +kernel) ?_
  simp only [List.forall_mem_cons, List.not_mem_nil, false_imp_iff, implies_true, and_true]
  exact ⟨storable_some (storable_bool _), storable_some (storable_str _)⟩

theorem otlpName_ok (signal : OtlpSignal) :
    squeeze (py "OTLP " ++ signal.value ++ py " ingest") =
        py "OTLP " ++ signal.value ++ py " ingest" ∧
      py "OTLP " ++ signal.value ++ py " ingest" ≠ [] ∧
      (py "OTLP " ++ signal.value ++ py " ingest").length ≤ 256 := by
  cases signal with
  | traces => decide +kernel
  | metrics => decide +kernel
  | logs => decide +kernel

/-- **The record of an accepted export is never refused**: it is the whole batch, named by the
digest of the document and citing its receipt. -/
theorem otlp_projection_admitted (rt : OtlpRuntime) (limits : OtlpLimits) (body : List UInt8)
    (scope : Scope) (key recordHash : PyStr) (batch : OtlpIngestBatch)
    (h : ingest rt limits body scope key = .ok batch) (hhash : isSha256Hex recordHash = true) :
    ∃ fields, batch.toDict rt.toRuntime = .ok fields ∧
      otlpProjection rt.toRuntime batch recordHash = .ok ⟨.telemetryWindow,
        py "otlp:" ++ rt.sha256 body, py "OTLP " ++ batch.signal.value ++ py " ingest", fields,
        .reported, [recordHash], none, none, otlpMetadata⟩ := by
  obtain ⟨fields, hbody, hfields⟩ := ingest_storable h
  obtain ⟨root, signal, b, _, _, _, haccept⟩ := ingest_ok h
  obtain ⟨_, idempotency, receipt, _, hidempotency, _, hreceipt, rfl⟩ := accept_ok haccept
  have hsha := IdempotencyClaim.new_hex hidempotency
  obtain ⟨rfl, _⟩ := IdempotencyClaim.new_ok hidempotency
  obtain ⟨hid, hidentifier⟩ := otlpEntityId_ok hsha
  obtain ⟨hname, hne, hlen⟩ := otlpName_ok signal
  have hrefs := cleanRefs_digest hhash
  refine ⟨fields, hbody, ?_⟩
  -- the guards of the draft, in the order of `__post_init__`
  unfold otlpProjection
  rw [hbody]
  show OperationalRecordDraft.new rt.toRuntime .telemetryWindow (py "otlp:" ++ rt.sha256 body)
    (py "OTLP " ++ signal.value ++ py " ingest") fields receipt.truthLabel [recordHash] none none
    otlpMetadata = _
  rw [ReceiptDraft.new_label hreceipt, OperationalRecordDraft.new_storable hid hidentifier hname hne
    hlen hfields (otlpMetadata_storable _) (by rw [hrefs]; exact List.cons_ne_nil _ _), hrefs]

theorem otlp_projection_admitted_sample : ∃ batch fields,
    ingest .integers .default logDocument logScope logKey = .ok batch ∧
    isSha256Hex (polynomialDigest []) = true ∧
    batch.toDict OtlpRuntime.integers.toRuntime = .ok fields ∧
      otlpProjection OtlpRuntime.integers.toRuntime batch (polynomialDigest []) = .ok
        ⟨.telemetryWindow, py "otlp:" ++ OtlpRuntime.integers.sha256 logDocument,
        py "OTLP " ++ batch.signal.value ++ py " ingest", fields, .reported,
        [polynomialDigest []], none, none, otlpMetadata⟩ := by
  have hok := logDocument_accepted
  have hhash := polynomialDigest_hex []
  cases h : ingest .integers .default logDocument logScope logKey with
  | error e =>
    rw [h] at hok
    cases hok
  | ok batch =>
    obtain ⟨fields, hbody, hdraft⟩ :=
      otlp_projection_admitted .integers .default logDocument logScope logKey _ batch h hhash
    exact ⟨batch, fields, rfl, hhash, hbody, hdraft⟩

/-! ## §3. The routes. -/

/-- `isinstance(e, OperationalConflict)`. -/
def Exn.isOperationalConflict : Exn → Bool
  | .operationalConflict _ => true
  | _ => false

section Routes

variable (rt : Runtime)

/-- The record that is there, if its body is that of the draft. -/
def sameBody (draft : OperationalRecordDraft) (current : Option OperationalRecord) :
    Option OperationalRecord :=
  current.filter (fun r => r.bodyJson.pyEq draft.body.json)

/-- The `try` of `_persist_projection`. -/
def writeProjection (sup : Supply) (scope : Scope) (draft : OperationalRecordDraft)
    (expectedVersion : Int) : StoreProg OperationalRecord :=
  (upsertOperational rt sup scope draft (some expectedVersion) none).tryCatch (fun e =>
    if e.isOperationalConflict then
      (getOperational scope draft.entityKind draft.entityId).bind (fun raced =>
        -- nobody's record, or another body: the bare `raise`
        match sameBody draft raced with
        | none => .raise e
        | some r => .ret r)
    else .raise e)

/-- `_persist_projection`. -/
def persistProjection (sup : Supply) (scope : Scope) (draft : OperationalRecordDraft) :
    StoreProg OperationalRecord :=
  (getOperational scope draft.entityKind draft.entityId).bind (fun current =>
    match sameBody draft current with
    | some r => .ret r
    -- an entity that is not there is expected at version 0
    | none => writeProjection rt sup scope draft (currentVersion current))

end Routes

variable {rt : Runtime} {d : Dialect} {F : Exn → Prop} {G : Db → List Write → Prop}

theorem sameBody_some {draft : OperationalRecordDraft} {current : Option OperationalRecord}
    {r : OperationalRecord} (h : sameBody draft current = some r) :
    current = some r ∧ r.bodyJson.pyEq draft.body.json = true := by
  unfold sameBody at h
  exact Option.filter_eq_some_iff.mp h

theorem sameBody_none {draft : OperationalRecordDraft} {r : OperationalRecord}
    (h : sameBody draft (some r) = none) : r.bodyJson.pyEq draft.body.json = false := by
  unfold sameBody at h
  simpa using h

/-! ## §4. The contract of a projection. -/

section Contract

variable {scope : Scope} {draft : OperationalRecordDraft}

/-- A version of the entity, with the body of the draft. -/
def ProjectionStored (scope : Scope) (draft : OperationalRecordDraft) (r : OperationalRecord)
    (db : Db) : Prop :=
  r ∈ entityVersions db scope draft.entityKind.value draft.entityId ∧
    r.bodyJson.pyEq draft.body.json = true

/-- Version `v` of the entity has another body; there is no version 0. -/
def Differs (scope : Scope) (draft : OperationalRecordDraft) (v : Int) (db : Db) : Prop :=
  v ≠ 0 → ∃ p ∈ entityVersions db scope draft.entityKind.value draft.entityId,
    p.version = v ∧ p.bodyJson.pyEq draft.body.json = false

/-- What `_persist_projection` commits: the version behind one with another body. -/
def ProjectionCommit (rt : Runtime) (sup : Supply) (scope : Scope)
    (draft : OperationalRecordDraft) (db : Db) (ws : List Write) (r : OperationalRecord) : Prop :=
  ∃ v, Differs scope draft v db ∧
    OperationalCommit rt sup scope draft false (some v) (sup.now 0).stamp db ws r

theorem Differs.grows {v : Int} {db db' : Db} (h : Differs scope draft v db)
    (hg : Grows db db') : Differs scope draft v db' := by
  intro hv
  obtain ⟨p, hp, hrest⟩ := h hv
  exact ⟨p, entityVersions_grows hp hg, hrest⟩

theorem ProjectionStored.grows {r : OperationalRecord} {db db' : Db}
    (h : ProjectionStored scope draft r db) (hg : Grows db db') :
    ProjectionStored scope draft r db' :=
  ⟨entityVersions_grows h.1 hg, h.2⟩

/-- What a look at the latest version is followed by. -/
theorem getOperational_sat {α : Type} {Q : Except Exn α → List (Db × List Write) → Db → Prop}
    {kind : OperationalEntityKind} {id : PyStr} {f : Option OperationalRecord → StoreProg α}
    {db : Db}
    (hf : ∀ latest db, SeenVersion db scope kind.value id latest →
      Sat (engine d) index F G Q (f latest) db [] [] [])
    (hfail : ∀ e db, Q (.error e) [] db) :
    Sat (engine d) index F G Q ((getOperational scope kind id).bind f) db [] [] [] := by
  refine sat_bind ?_
  unfold getOperational
  split
  · exact ⟨rfl, rfl, fun _ _ => ⟨rfl, rfl, fun _ _ => hfail _ _⟩⟩
  refine sat_readSession (Body.sat_bind (sat_assertScope ?_
    (fun _ _ _ => ⟨rfl, rfl, fun _ _ => hfail _ _⟩)
    (fun _ _ _ _ _ => ⟨rfl, rfl, fun _ _ => hfail _ _⟩)))
  intro db₁ _ _
  refine Body.sat_select ?_ (fun _ _ _ _ _ _ => ⟨rfl, rfl, fun _ _ => hfail _ _⟩)
  intro db₂ _ db₃ henv₃
  rw [Engine.view_nil]
  exact hf _ _ ((seenVersion_latest db₂ scope kind.value id).grows (env_grows henv₃))

/-- A version that was seen is still there when the write is committed. -/
theorem writeProjection_sat {sup : Supply} {v : Int} {db : Db} (hv : Differs scope draft v db)
    (hG : ∀ v db ws r,
      OperationalCommit rt sup scope draft false (some v) (sup.now 0).stamp db ws r →
        index.Fresh db ws → G db ws)
    (hnil : ∀ db, G db []) :
    Sat (engine d) index F G
      (Outcome (engine d) index G (ProjectionCommit rt sup scope draft)
        (ProjectionStored scope draft) AnyExn)
      (writeProjection rt sup scope draft v) db [] [] [] := by
  have hwrite : Sat (engine d) index F G
      (Outcome (engine d) index G (ProjectionCommit rt sup scope draft)
        (ProjectionStored scope draft) AnyExn)
      (upsertOperational rt sup scope draft (some v) none) db [] [] [] := by
    unfold upsertOperational
    split
    · exact sat_raise_outcome trivial
    have hop : Sat (engine d) index F G
        (Outcome (engine d) index G (fun db ws r => OperationalCommit rt sup scope draft false
          (some v) ((none : Option Stamp).getD (sup.now 0).stamp) db ws r) Never AnyExn)
        (writeOperational rt sup scope draft false (some v) none) db [] [] [] :=
      writeOperational_sat (hG v) hnil
    -- rows only grow, so the other body that was seen is there at the commit
    refine (hop.always (fun _ _ h henv => Differs.grows h (env_grows henv)) hv (by simp)).imp ?_
    rintro r done db' ⟨hout, hdiffers⟩
    cases hout with
    | failed he => exact .failed he
    | replayed hp _ => exact hp.elim
    | committed hc hf henv =>
      exact .committed ⟨v, hdiffers _ List.mem_cons_self, hc⟩ hf henv
  refine sat_tryCatch_outcome AnyExn hwrite ?_
    (fun _ _ _ _ h henv => ProjectionStored.grows h (env_grows henv))
  intro e db' _
  -- only a conflict is looked at again
  split
  · refine getOperational_sat (fun raced db'' hseen => ?_) (fun _ _ => .failed trivial)
    cases hraced : sameBody draft raced with
    | none => exact sat_raise_outcome trivial
    | some r =>
      obtain ⟨rfl, hbody⟩ := sameBody_some hraced
      have hstored : ProjectionStored scope draft r db'' := ⟨hseen r rfl, hbody⟩
      exact ⟨rfl, rfl, fun _ henv => .replayed (hstored.grows (env_grows henv)) (by simp)⟩
  · exact sat_raise_outcome trivial

/-- **`_persist_projection`** fails without effect, answers a version with the body of the draft,
or commits one behind a version with another body. -/
theorem persistProjection_sat {sup : Supply} {db : Db}
    (hG : ∀ v db ws r,
      OperationalCommit rt sup scope draft false (some v) (sup.now 0).stamp db ws r →
        index.Fresh db ws → G db ws)
    (hnil : ∀ db, G db []) :
    Sat (engine d) index F G
      (Outcome (engine d) index G (ProjectionCommit rt sup scope draft)
        (ProjectionStored scope draft) AnyExn)
      (persistProjection rt sup scope draft) db [] [] [] := by
  unfold persistProjection
  refine getOperational_sat (fun current db' hseen => ?_) (fun _ _ => .failed trivial)
  cases hcurrent : sameBody draft current with
  | some r =>
    obtain ⟨rfl, hbody⟩ := sameBody_some hcurrent
    have hstored : ProjectionStored scope draft r db' := ⟨hseen r rfl, hbody⟩
    exact ⟨rfl, rfl, fun _ henv => .replayed (hstored.grows (env_grows henv)) (by simp)⟩
  | none =>
    -- the version that is expected is the one with another body
    refine writeProjection_sat ?_ hG hnil
    intro hv
    cases current with
    | none => exact absurd rfl hv
    | some p => exact ⟨p, hseen p rfl, rfl, sameBody_none hcurrent⟩

end Contract

/-! ## §5. Requests at once. -/

/-- A request that keeps a record, or any other call of the store. -/
inductive IngestClient where
  | projection (sup : Supply) (scope : Scope) (draft : OperationalRecordDraft)
  | call (c : StoreCall)

namespace IngestClient

def prog (rt : Runtime) (d : Dialect) : IngestClient → StoreProg StoreResult
  | .projection sup scope draft =>
      (persistProjection rt sup scope draft).bind (fun r => .ret (.operational r))
  | .call c => c.prog rt d

/-- What a client may commit. -/
def Commits (rt : Runtime) (x : IngestClient) (db : Db) (ws : List Write) (r : StoreResult) :
    Prop :=
  match x with
  | .projection sup scope draft =>
      ∃ o, r = .operational o ∧ ProjectionCommit rt sup scope draft db ws o
  | .call c => c.Commits rt db ws r

/-- What it may answer from the rows that are there. -/
def Replays (rt : Runtime) (x : IngestClient) (r : StoreResult) (db : Db) : Prop :=
  match x with
  | .projection _ scope draft => ∃ o, r = .operational o ∧ ProjectionStored scope draft o db
  | .call c => c.Replays rt r db

/-- Its drafts of the entity are projections with the body. -/
def KeepsTo (kind id : PyStr) (body : JsonDict) : IngestClient → Prop
  | .projection _ _ draft => draft.entityKind.value = kind → draft.entityId = id → draft.body = body
  | .call c => ∀ draft ∈ c.op.drafts, ¬ (draft.entityKind.value = kind ∧ draft.entityId = id)

end IngestClient

/-- An effect of the store whose versions of the entity have the body. -/
def KeepsBody (rt : Runtime) (d : Dialect) (kind id : PyStr) (body : JsonDict) (db : Db)
    (ws : List Write) : Prop :=
  Effect rt d db ws ∧ ∀ o, Write.addRow (.operational o) ∈ ws → o.entityKind = kind →
    o.entityId = id → o.bodyJson = body.json

section Bodies

variable {kind id : PyStr} {body : JsonDict} {scope : Scope}

theorem OperationalCommit.row {sup : Supply} {draft : OperationalRecordDraft} {insertOnly : Bool}
    {expected : Option Int} {at_ : Stamp} {db : Db} {ws : List Write} {r o : OperationalRecord}
    (h : OperationalCommit rt sup scope draft insertOnly expected at_ db ws r)
    (ho : Write.addRow (.operational o) ∈ ws) :
    o = r ∧ r.inScope scope = true ∧ r.entityKind = draft.entityKind.value ∧
      r.entityId = draft.entityId ∧ r.bodyJson = draft.body.json ∧
      ∀ v, expected = some v → r.version = v + 1 := by
  cases h with
  | mk _ _ _ hexpected _ hrow =>
    have hin := (operationalRow_sealed hrow).sealed.inScope
    obtain ⟨_, _, _, _, hr⟩ := operationalRow_ok hrow
    have hone : o = r := by simpa [mem_appendWrites] using ho
    refine ⟨hone, hin, ?_⟩
    rw [hr]
    refine ⟨rfl, rfl, rfl, fun v hv => ?_⟩
    rw [hexpected v hv]

theorem OperationalCommit.written {sup : Supply} {draft : OperationalRecordDraft}
    {insertOnly : Bool} {expected : Option Int} {at_ : Stamp} {db : Db} {ws : List Write}
    {r : OperationalRecord}
    (h : OperationalCommit rt sup scope draft insertOnly expected at_ db ws r) :
    Write.addRow (.operational r) ∈ ws ∧ r.inScope scope = true ∧
      r.entityKind = draft.entityKind.value ∧ r.entityId = draft.entityId := by
  have hmem : Write.addRow (.operational r) ∈ ws := by
    cases h
    simp [mem_appendWrites]
  obtain ⟨_, hin, hk, hd, _⟩ := h.row hmem
  exact ⟨hmem, hin, hk, hd⟩

theorem IngestClient.sat (x : IngestClient) (hx : x.KeepsTo kind id body) (db : Db) :
    Sat (engine d) index F (KeepsBody rt d kind id body)
      (Outcome (engine d) index (KeepsBody rt d kind id body) (x.Commits rt) (x.Replays rt) AnyExn)
      (x.prog rt d) db [] [] [] := by
  cases x with
  | projection sup scope draft =>
    refine (persistProjection_sat (fun v db ws r h hf => ⟨h.effect, ?_⟩)
      (fun _ => ⟨.nothing, by simp⟩)).map ?_
    · intro r done db' h
      exact h.map (fun _ _ _ hc => ⟨_, rfl, hc⟩) (fun _ _ hp => ⟨_, rfl, hp⟩) (fun _ he => he)
    · intro o ho hkind hid
      obtain ⟨rfl, _, hk, hi, hbody, _⟩ := h.row ho
      rw [hbody, hx (hk ▸ hkind) (hi ▸ hid)]
  | call c =>
    refine (c.sat db (fun db ws r h hf => ⟨h.effect hf, ?_⟩) (fun _ => ⟨.nothing, by simp⟩)).imp
      (fun r done db' h => ?_)
    · cases h with
      | failed _ => exact .failed trivial
      | replayed hp hdone => exact .replayed hp hdone
      | committed hc hf henv => exact .committed hc hf henv
    · intro o ho hkind hid
      obtain ⟨draft, hdraft, _, _, _, _, _, _, _, hrow⟩ := h.drafted ho
      obtain ⟨_, _, _, _, hr⟩ := operationalRow_ok hrow
      refine absurd ⟨?_, ?_⟩ (hx draft hdraft)
      · rw [← hkind, hr]
      · rw [← hid, hr]

theorem operational_commit {db : Db} {ws : List Write} {o : OperationalRecord}
    (h : o ∈ ((engine d).commit db ws).operational) :
    o ∈ db.operational ∨ ∃ row, Write.addRow (.operational row) ∈ ws ∧ o = row.stored d := by
  have hrow : Row.operational o ∈ ((engine d).commit db ws).rows .operational :=
    List.mem_map.mpr ⟨o, h, rfl⟩
  rw [rows_commit] at hrow
  rcases List.mem_append.mp hrow with hrow | hrow
  · obtain ⟨o', ho', he⟩ := List.mem_map.mp hrow
    exact .inl (Row.operational.inj he ▸ ho')
  · obtain ⟨r, hr, hstored⟩ := List.mem_map.mp hrow
    obtain ⟨hw, hk⟩ := mem_addedRows.mp hr
    cases r with
    | operational row => exact .inr ⟨row, hw, (Row.operational.inj hstored).symm⟩
    | _ => cases hk

/-- Every version of the entity has the body. -/
def AllKeep (scope : Scope) (kind id : PyStr) (body : JsonDict) (db : Db) : Prop :=
  ∀ o ∈ entityVersions db scope kind id, o.bodyJson = body.json

theorem AllKeep.env {held : List RowLock} {db db' : Db} (h : AllKeep scope kind id body db)
    (henv : Env (engine d) index (KeepsBody rt d kind id body) held db db') :
    AllKeep scope kind id body db' := by
  induction henv with
  | refl => exact h
  | commit _ hG _ _ ih =>
    intro o ho
    obtain ⟨hm, hin, hkind, hid⟩ := mem_entityVersions.mp ho
    rcases operational_commit hm with hm | ⟨row, hrow, rfl⟩
    · exact ih o (mem_entityVersions.mpr ⟨hm, hin, hkind, hid⟩)
    · exact hG.2 row hrow hkind hid

theorem StoreInv.keepsBody {held : List RowLock} {db db' : Db} (hi : StoreInv rt db)
    (henv : Env (engine d) index (KeepsBody rt d kind id body) held db db') : StoreInv rt db' := by
  induction henv with
  | refl => exact hi
  | commit _ hG hf _ ih => exact ih.effect hG.1 hf

end Bodies

/-! ## §6. One body, one version. -/

section Once

variable {ι : Type} [DecidableEq ι] {clients : ι → IngestClient} {c : StoreConfig ι} {db₀ : Db}
variable {kind id : PyStr} {body : JsonDict} {scope : Scope}

/-- The invariant of what the clients reach. -/
abbrev ClientsInv (rt : Runtime) (d : Dialect) (F : Exn → Prop) (kind id : PyStr) (body : JsonDict)
    (db₀ : Db) (clients : ι → IngestClient) (c : StoreConfig ι) : Prop :=
  Inv (engine d) index F (KeepsBody rt d kind id body)
    (fun i => Outcome (engine d) index (KeepsBody rt d kind id body) ((clients i).Commits rt)
      ((clients i).Replays rt) AnyExn) db₀ c

theorem inScope_eq {m m' : AppendOnlyMixin} {s s' : Scope} (hm : m.inScope s = true)
    (hm' : m.inScope s' = true) : m'.inScope s' = m'.inScope s := by
  obtain ⟨ht, hw⟩ := inScope_ids hm
  obtain ⟨ht', hw'⟩ := inScope_ids hm'
  unfold AppendOnlyMixin.inScope
  rw [← ht, ← hw, ← ht', ← hw']

/-- **Whatever version is written is the first**: an earlier one would have the body, and then
no client writes. -/
theorem first_version (hinv : ClientsInv rt d F kind id body db₀ clients c)
    (hbody : body.json.encodable = true) (hkeep : ∀ i, (clients i).KeepsTo kind id body)
    (hall : AllKeep scope kind id body db₀) {e : CommitEvent Db Write ι} (he : e ∈ c.log)
    {row : OperationalRecord} (hrow : Write.addRow (.operational row) ∈ e.rows)
    (hin : row.inScope scope = true) (hkind : row.entityKind = kind) (hid : row.entityId = id) :
    row.version = 1 := by
  obtain ⟨_, r, hcommits⟩ := hinv.commit_once (index_lawful d) he (List.ne_nil_of_mem hrow)
  have hk := hkeep e.who
  cases hx : clients e.who with
  | call call =>
    rw [hx] at hcommits hk
    obtain ⟨draft, hdraft, _, _, _, _, _, _, _, hmade⟩ := StoreCall.Commits.drafted hcommits hrow
    obtain ⟨_, _, _, _, hr⟩ := operationalRow_ok hmade
    refine absurd ⟨?_, ?_⟩ (hk draft hdraft)
    · rw [← hkind, hr]
    · rw [← hid, hr]
  | projection sup s draft =>
    rw [hx] at hcommits hk
    obtain ⟨o, _, v, hdiffers, hcommit⟩ := hcommits
    obtain ⟨rfl, hins, hkd, hidd, _, hversion⟩ := hcommit.row hrow
    rw [hversion v rfl]
    -- behind any other version there would be one with another body
    by_contra hne
    obtain ⟨p, hp, _, hother⟩ := hdiffers (by omega)
    obtain ⟨hpm, hpin, hpk, hpid⟩ := mem_entityVersions.mp hp
    -- the earlier version is of this entity too, so it has the body
    have hentity : p ∈ entityVersions e.before scope kind id := by
      refine mem_entityVersions.mpr ⟨hpm, ?_, by rw [hpk, ← hkd, hkind], by rw [hpid, ← hidd, hid]⟩
      rw [← inScope_eq hin hins]
      exact hpin
    have hsame := hall.env (hinv.logFrom e he) p hentity
    have hdraft := hk (hkd ▸ hkind) (hidd ▸ hid)
    rw [hsame, hdraft, Json.pyEq_refl body.json_nodupKeys hbody] at hother
    cases hother

/-- What is kept of a record when it is stored. -/
theorem stored_mem {db db' : Db} {ws : List Write} {o : OperationalRecord}
    (ho : Write.addRow (.operational o) ∈ ws)
    (henv : Env (engine d) index G [] ((engine d).commit db ws) db') :
    o.stored d ∈ db'.operational := by
  obtain ⟨r, hr, he⟩ := List.mem_map.mp (stored_row_mem ho henv)
  have heq : r = o.stored d := Row.operational.inj he
  rw [← heq]
  exact hr

/-- **Requests with one body write one version of it**, whatever the interleaving, and every one
that returns answers that version. -/
theorem projection_written_once (setup : List Issued) (clients : ι → IngestClient)
    {c : StoreConfig ι} (hbody : body.json.encodable = true)
    (hnew : entityVersions (runCalls rt d Db.empty setup) scope kind id = [])
    (hkeep : ∀ i, (clients i).KeepsTo kind id body)
    (hreach : Reach (engine d) index F
      (.start (runCalls rt d Db.empty setup) (fun i => (clients i).prog rt d)) c) :
    (entityVersions c.db scope kind id).length ≤ 1 ∧
      ∀ i sup draft r, clients i = .projection sup scope draft → draft.entityKind.value = kind →
        draft.entityId = id → (c.calls i).prog = .ret r →
        ∃ o kept, r = .operational o ∧ entityVersions c.db scope kind id = [kept] ∧
          (o = kept ∨ o.stored d = kept) ∧ kept.version = 1 ∧ kept.bodyJson = body.json := by
  have hi₀ : StoreInv rt (runCalls rt d Db.empty setup) := storeInv_run setup (storeInv_empty rt)
  have hall₀ : AllKeep scope kind id body (runCalls rt d Db.empty setup) := by
    intro o ho
    rw [hnew] at ho
    cases ho
  have hinv : ClientsInv rt d F kind id body (runCalls rt d Db.empty setup) clients c :=
    reach_inv (index_lawful d) (fun i => (clients i).sat (hkeep i) _) hreach
  have hall := hall₀.env hinv.path
  -- every version comes from a commit, and is the first
  have hfirst : ∀ o ∈ entityVersions c.db scope kind id, o.version = 1 := by
    intro o ho
    obtain ⟨hm, hin, hkind, hid⟩ := mem_entityVersions.mp ho
    have hrow : Row.operational o ∈ c.db.rows .operational := List.mem_map.mpr ⟨o, hm, rfl⟩
    rw [hinv.logReplay, rows_replay] at hrow
    rcases List.mem_append.mp hrow with hrow | hrow
    · obtain ⟨o', ho', he⟩ := List.mem_map.mp hrow
      rw [Row.operational.inj he] at ho'
      have hold : o ∈ entityVersions (runCalls rt d Db.empty setup) scope kind id :=
        mem_entityVersions.mpr ⟨ho', hin, hkind, hid⟩
      rw [hnew] at hold
      cases hold
    · obtain ⟨e, he, hrow⟩ := List.mem_flatMap.mp hrow
      obtain ⟨row, hr, hstored⟩ := List.mem_map.mp hrow
      obtain ⟨hw, hk⟩ := mem_addedRows.mp hr
      cases row with
      | operational row =>
        have hkept : o = row.stored d := (Row.operational.inj hstored).symm
        rw [hkept] at hin hkind hid ⊢
        show row.version = 1
        exact first_version hinv hbody hkeep hall₀ he hw hin hkind hid
      | _ => cases hk
  have hperm := (versions_grounded (hi₀.keepsBody hinv.path) scope kind id).perm
  -- the versions are 1, 2, …, so two of them would include version 2
  have hlength : (entityVersions c.db scope kind id).length ≤ 1 := by
    by_contra hmany
    have htwo : (2 : Int) ∈ versionsOf c.db scope kind id := by
      rw [hperm.mem_iff, Versions.mem_upTo]
      unfold versionsOf
      rw [List.length_map]
      omega
    obtain ⟨o, ho, hv⟩ := List.mem_map.mp htwo
    have hone := hfirst o ho
    omega
  refine ⟨hlength, ?_⟩
  intro i sup draft r hx hkind hid hret
  have hout := hinv.returned hret
  have honly : ∀ kept ∈ entityVersions c.db scope kind id,
      entityVersions c.db scope kind id = [kept] := by
    intro kept hkept
    obtain ⟨other, hother⟩ := List.length_eq_one_iff.mp
      (Nat.le_antisymm hlength (List.length_pos_of_mem hkept))
    rw [hother, List.mem_singleton] at hkept
    rw [hother, hkept]
  simp only [hx] at hout
  generalize commitsOf c.log i = done at hout
  cases hout with
  | replayed hp _ =>
    obtain ⟨o, rfl, hstored, _⟩ := hp
    rw [hkind, hid] at hstored
    exact ⟨o, o, rfl, honly o hstored, .inl rfl, hfirst o hstored, hall o hstored⟩
  | committed hc _ henv =>
    -- what it answers is its own row, which the dialect has stored since
    obtain ⟨o, rfl, v, _, hcommit⟩ := hc
    obtain ⟨hw, hin, hk, hd⟩ := hcommit.written
    have hkept : o.stored d ∈ entityVersions c.db scope kind id := by
      refine mem_entityVersions.mpr ⟨stored_mem hw henv, hin, ?_, ?_⟩
      · exact hk.trans hkind
      · exact hd.trans hid
    exact ⟨o, _, rfl, honly _ hkept, .inr rfl, hfirst _ hkept, hall _ hkept⟩

end Once

/-- Two requests with one record. -/
def sampleIngests : Bool → IngestClient
  | false => .projection (.sample (py "c")) sampleScope (sampleIncident sampleInstant.stamp)
  | true => .projection (.sample (py "e")) sampleScope (sampleIncident sampleInstant.stamp)

/-- One of them returns. -/
theorem sampleIngests_reach : ∃ c : StoreConfig Bool,
    Reach (engine .sqlite) index noFault (.start (runCalls .ascii .sqlite Db.empty sampleSetup)
      (fun i => (sampleIngests i).prog .ascii .sqlite)) c ∧
      ∃ r, (c.calls false).prog = .ret r :=
  reach_returned index false (by decide +kernel)

theorem projection_written_once_sample : ∃ c : StoreConfig Bool, ∃ r o kept,
    (c.calls false).prog = .ret r ∧ r = .operational o ∧
      entityVersions c.db sampleScope OperationalEntityKind.incidentEvent.value (py "event-1") =
        [kept] ∧
      (o = kept ∨ o.stored .sqlite = kept) ∧ kept.version = 1 ∧
      kept.bodyJson = JsonDict.empty.json := by
  obtain ⟨c, hreach, r, hret⟩ := sampleIngests_reach
  have hkeep : ∀ i, (sampleIngests i).KeepsTo OperationalEntityKind.incidentEvent.value
      (py "event-1") .empty := by
    intro i
    cases i with
    | false => exact fun _ _ => rfl
    | true => exact fun _ _ => rfl
  have hnew : entityVersions (runCalls .ascii .sqlite Db.empty sampleSetup) sampleScope
      OperationalEntityKind.incidentEvent.value (py "event-1") = [] := by
    decide +kernel
  obtain ⟨_, hanswers⟩ := projection_written_once sampleSetup sampleIngests (by decide +kernel)
    hnew hkeep hreach
  obtain ⟨o, kept, hrest⟩ := hanswers false _ _ r rfl rfl rfl hret
  exact ⟨c, r, o, kept, hret, hrest⟩

end Lyte
