import Lyte.Persistence.DocumentHashes
import Lyte.Persistence.OperationalListing
import Lyte.Persistence.BundleAtomicity
import Lyte.Persistence.VerifyConcurrency

/-
  Lyte.Persistence.BatchUpsert — a batch of operational drafts.

  `upsert_operational_batch` leaves out the drafts that the latest version of
  their entity already says.  It compares bodies, truth labels and source
  revisions: a draft that is new in its name, its references, its observation
  time or its metadata only is left out too.

      upsert_batch_established   what a batch that succeeds has established, and
                                 when.
-/

namespace Lyte

open Transact

/-! ## §1. Drafts. -/

/-- An `OperationalRecordDraft`, its body and metadata as the Python dicts that they
are. -/
structure OperationalDocument where
  entityKind : OperationalEntityKind
  entityId : PyStr
  name : PyStr
  body : List (PyKey × PyValue)
  truthLabel : TruthLabel
  evidenceRefs : List PyStr
  sourceRevision : Option PyStr
  observedAt : Option Stamp
  metadata : List (PyKey × PyValue)
  /-- A Python dict has no key twice, and the constructor writes both documents once. -/
  documents : ∀ fields ∈ [body, metadata], (PyValue.dict fields).nodupKeys = true ∧
    (PyValue.dict fields).encodable = true

/-- What a batch tells its drafts apart by. -/
def OperationalDocument.identity (draft : OperationalDocument) : OperationalEntityKind × PyStr :=
  (draft.entityKind, draft.entityId)

/-- The columns of an entity. -/
def OperationalDocument.entity (draft : OperationalDocument) : PyStr × PyStr :=
  (draft.entityKind.value, draft.entityId)

mutual
/-- `stored == value`, of a value that a JSON column returned and any other one: a list
is equal to no tuple, and only a string is equal to a string key. -/
def Json.eqValue : Json → PyValue → Bool
  | .null, .none => true
  | .str s, .str t => s == t
  | .list xs, .list ys => eqItems xs ys
  | .dict xs, .dict ys => xs.length == ys.length && eqFields xs ys
  | .bool a, .bool b => Json.numEq (.bool a) (.bool b)
  | .bool a, .int n => Json.numEq (.bool a) (.int n)
  | .bool a, .float f => Json.numEq (.bool a) (.float f)
  | .int n, .bool b => Json.numEq (.int n) (.bool b)
  | .int n, .int m => Json.numEq (.int n) (.int m)
  | .int n, .float f => Json.numEq (.int n) (.float f)
  | .float f, .bool b => Json.numEq (.float f) (.bool b)
  | .float f, .int n => Json.numEq (.float f) (.int n)
  | .float f, .float g => Json.numEq (.float f) (.float g)
  | _, _ => false

def Json.eqItems : List Json → List PyValue → Bool
  | [], ys => ys.isEmpty
  | x :: xs, ys => match ys with
      | [] => false
      | y :: ys => x.eqValue y && eqItems xs ys

/-- Every field of the first dict is in the second, with an equal value. -/
def Json.eqFields : List (PyStr × Json) → List (PyKey × PyValue) → Bool
  | [], _ => true
  | (k, v) :: xs, ys =>
      (match ys.lookup (.str k) with
        | some w => v.eqValue w
        | none => false) && eqFields xs ys
end

/-- The comparison that leaves a draft out of a batch. -/
def unchangedDocument (latest : OperationalRecord) (draft : OperationalDocument) : Bool :=
  latest.bodyJson.eqValue (.dict draft.body) && latest.truthLabel == draft.truthLabel.value &&
    latest.sourceRevision == draft.sourceRevision

/-! ## §2. The batch. -/

section Batch

variable (rt : Runtime)

/-- The `data` of a new version. -/
def OperationalDocument.data (draft : OperationalDocument) (version : Int)
    (observedAt : Option PyStr) : List (PyStr × PyValue) := [
  (py "entity_kind", .str draft.entityKind.value),
  (py "entity_id", .str draft.entityId),
  (py "version", .int version),
  (py "name", .str draft.name),
  (py "truth_label", .str draft.truthLabel.value),
  (py "body", .dict draft.body),
  (py "evidence_refs", .list (draft.evidenceRefs.map .str)),
  (py "source_revision", .ofNullable draft.sourceRevision),
  (py "observed_at", .ofNullable observedAt),
  (py "metadata", .dict draft.metadata)]

/-- `isoformat_z(value) if value else None`. -/
def isoNullable : Option Stamp → Except Exn (Option PyStr)
  | none => .ok none
  | some s => (isoformatZ s).map some

/-- The next version of a draft's entity; a basis that cannot be written raises a
TypeError or a ValueError. -/
def documentRow (id : PyStr) (scope : Scope) (draft : OperationalDocument) (version sequence : Int)
    (previousHash : Option PyStr) (at_ : Stamp) : Except Exn OperationalRecord := do
  let observedAt ← isoNullable draft.observedAt
  let createdAt ← isoformatZ at_
  let basis := RowHeader.basis
    ⟨operationalSchema, scope, .operational, sequence, previousHash, createdAt⟩
    (draft.data version observedAt)
  match basis.sha256Json rt with
  | none => throw .typeError
  | some recordHash => return {
      id := id
      tenantId := scope.tenantId.text
      workspaceId := scope.workspaceId.text
      sequence := sequence
      previousHash := previousHash
      recordHash := recordHash
      basisJson := basis.roundTrip rt
      createdAt := at_
      entityKind := draft.entityKind.value
      entityId := draft.entityId
      version := version
      name := draft.name
      truthLabel := draft.truthLabel.value
      bodyJson := (PyValue.dict draft.body).roundTrip rt
      evidenceRefs := Json.strs draft.evidenceRefs
      sourceRevision := draft.sourceRevision
      observedAt := draft.observedAt
      metadataJson := (PyValue.dict draft.metadata).roundTrip rt }

/-- The latest version of a draft's entity. -/
def OperationalDocument.latest (db : Db) (scope : Scope) (draft : OperationalDocument) :
    Option OperationalRecord :=
  latestOperational db scope draft.entityKind.value draft.entityId

/-- The loop of `upsert_operational_batch`. -/
def documentLoop (sup : Supply) (scope : Scope) (at_ : Stamp) :
    List OperationalDocument → StreamHeadRecord → List OperationalRecord →
      StoreBody (StreamHeadRecord × List OperationalRecord)
  | [], head, written => return (head, written)
  | draft :: drafts, head, written => do
      let latest ← Body.select (fun db => draft.latest db scope)
      if latest.any (fun r => unchangedDocument r draft) then
        documentLoop sup scope at_ drafts head written
      else
        let row ← Body.ofExcept (documentRow rt (sup.uuid written.length) scope draft
          (currentVersion latest + 1) (head.lastSequence + 1) head.lastHash at_)
        documentLoop sup scope at_ drafts (advanceHead head row.sequence row.recordHash at_)
          (written ++ [row])

/-- The transaction of `upsert_operational_batch`. -/
def upsertDocumentsBody (sup : Supply) (scope : Scope) (drafts : List OperationalDocument)
    (at_ : Stamp) : StoreBody (List OperationalRecord) := do
  assertScope scope
  let head ← lockedHead scope .operational
  let (head, written) ← documentLoop rt sup scope at_ drafts head []
  if written.isEmpty then return []
  else
    Body.flush (appendWrites [⟨written.map .operational, head⟩])
    return written

/-- `upsert_operational_batch`. -/
def upsertDocuments (sup : Supply) (scope : Scope) (drafts : List OperationalDocument)
    (createdAt : Option Stamp) : StoreProg (List OperationalRecord) :=
  if ¬ (drafts.map OperationalDocument.identity).Nodup then
    .raise (.valueError (py "operational batch contains duplicate entity identities"))
  else if drafts.isEmpty then .ret []
  else
    let at_ := createdAt.getD (sup.now 0).stamp
    (transaction (upsertDocumentsBody rt sup scope drafts at_)).tryCatch (fun e =>
      if e.isIntegrityError then
        .raise (.operationalConflict
          (py "operational batch append conflicted with concurrent state"))
      else .raise e)

end Batch

/-! ## §3. The loop. -/

section Loop

variable {rt : Runtime} {sup : Supply} {scope : Scope} {at_ : Stamp} {db : Db}

/-- Whether the batch leaves the draft out. -/
def OperationalDocument.skipped (db : Db) (scope : Scope) (draft : OperationalDocument) : Bool :=
  (draft.latest db scope).any (fun r => unchangedDocument r draft)

/-- The row of a draft that is not left out. -/
def WrittenFor (rt : Runtime) (sup : Supply) (scope : Scope) (at_ : Stamp) (db : Db)
    (draft : OperationalDocument) (row : OperationalRecord) : Prop :=
  ∃ i sequence previousHash, documentRow rt (sup.uuid i) scope draft
    (currentVersion (draft.latest db scope) + 1) sequence previousHash at_ = .ok row

/-- The rows that the loop writes for its drafts. -/
inductive DocumentRows (rt : Runtime) (sup : Supply) (scope : Scope) (at_ : Stamp) (db : Db) :
    List OperationalDocument → List OperationalRecord → Prop
  | nil : DocumentRows rt sup scope at_ db [] []
  | skip {draft drafts rows} : draft.skipped db scope = true →
      DocumentRows rt sup scope at_ db drafts rows →
      DocumentRows rt sup scope at_ db (draft :: drafts) rows
  | write {draft drafts row rows} : draft.skipped db scope = false →
      WrittenFor rt sup scope at_ db draft row →
      DocumentRows rt sup scope at_ db drafts rows →
      DocumentRows rt sup scope at_ db (draft :: drafts) (row :: rows)

theorem eval_documentLoop_ok {drafts : List OperationalDocument} {head head' : StreamHeadRecord}
    {written written' : List OperationalRecord} {ws : List Write}
    (hnames : head.names scope.tenantId.text scope.workspaceId.text StreamKind.operational.value
      = true)
    (h : (documentLoop rt sup scope at_ drafts head written).eval (engine d) db []
      = .ok ((head', written'), ws)) :
    ws = [] ∧ head'.names scope.tenantId.text scope.workspaceId.text StreamKind.operational.value
      = true ∧
      ∃ rows, written' = written ++ rows ∧ DocumentRows rt sup scope at_ db drafts rows := by
  induction drafts generalizing head written with
  | nil =>
    cases h
    exact ⟨rfl, hnames, [], (List.append_nil _).symm, .nil⟩
  | cons draft drafts ih =>
    unfold documentLoop at h
    rw [Body.bind_eq, eval_select_bind, Engine.view_nil] at h
    split at h
    · next hskip =>
      obtain ⟨hws, hn, rows, hrows, hdocs⟩ := ih hnames h
      exact ⟨hws, hn, rows, hrows, .skip hskip hdocs⟩
    · next hskip =>
      rw [Body.bind_eq] at h
      obtain ⟨row, _, hx, h⟩ := eval_bind_ok _ h
      obtain ⟨hrow, rfl⟩ := eval_ofExcept_ok _ hx
      have hnext : (advanceHead head row.sequence row.recordHash at_).names scope.tenantId.text
          scope.workspaceId.text StreamKind.operational.value = true := hnames
      obtain ⟨hws, hn, rows, hrows, hdocs⟩ := ih hnext h
      refine ⟨hws, hn, row :: rows, ?_, .write (Bool.eq_false_iff.mpr hskip) ⟨_, _, _, hrow⟩ hdocs⟩
      rw [hrows, List.append_assoc]
      rfl

/-- A loop whose drafts are all left out writes nothing. -/
theorem eval_documentLoop_skips {drafts : List OperationalDocument} {head : StreamHeadRecord}
    {written : List OperationalRecord} (h : ∀ draft ∈ drafts, draft.skipped db scope = true) :
    (documentLoop rt sup scope at_ drafts head written).eval (engine d) db []
      = .ok ((head, written), []) := by
  induction drafts with
  | nil => rfl
  | cons draft drafts ih =>
    unfold documentLoop
    rw [Body.bind_eq, eval_select_bind, Engine.view_nil]
    have hskip := h draft List.mem_cons_self
    unfold OperationalDocument.skipped at hskip
    rw [if_pos hskip]
    exact ih (fun x hx => h x (List.mem_cons_of_mem _ hx))

/-- What a written row says. -/
theorem documentRow_ok {id : PyStr} {draft : OperationalDocument} {version sequence : Int}
    {previousHash : Option PyStr} {row : OperationalRecord}
    (h : documentRow rt id scope draft version sequence previousHash at_ = .ok row) :
    row.inScope scope = true ∧ row.entity = draft.entity ∧ row.version = version ∧
      row.name = draft.name ∧ row.truthLabel = draft.truthLabel.value ∧
      row.bodyJson = (PyValue.dict draft.body).roundTrip rt ∧
      row.evidenceRefs = Json.strs draft.evidenceRefs ∧ row.sourceRevision = draft.sourceRevision ∧
      row.observedAt = draft.observedAt ∧
      row.metadataJson = (PyValue.dict draft.metadata).roundTrip rt ∧
      (PyValue.dict draft.body).encodable = true := by
  obtain ⟨observedAt, _, h⟩ := ok_of_bind h
  obtain ⟨createdAt, _, h⟩ := ok_of_bind h
  simp only at h
  split at h
  · cases h
  · next hash hhash =>
    cases h
    have he : (RowHeader.basis ⟨operationalSchema, scope, .operational, sequence, previousHash,
        createdAt⟩ (draft.data version observedAt)).encodable = true := by
      by_contra hne
      unfold PyValue.sha256Json PyValue.canonicalJson at hhash
      rw [if_neg hne] at hhash
      cases hhash
    refine ⟨?_, rfl, rfl, rfl, rfl, rfl, rfl, rfl, rfl, rfl, ?_⟩
    · unfold AppendOnlyMixin.inScope
      simp
    · exact encodable_basis he (py "body", .dict draft.body) (by simp [OperationalDocument.data])

/-- The rows of an entity that the batch does not name. -/
theorem DocumentRows.not_named {drafts : List OperationalDocument} {rows : List OperationalRecord}
    (h : DocumentRows rt sup scope at_ db drafts rows) {e : PyStr × PyStr}
    (he : e ∉ drafts.map OperationalDocument.entity) : ∀ o ∈ rows, o.entity ≠ e := by
  induction h with
  | nil =>
    intro o ho
    cases ho
  | skip _ _ ih =>
    exact ih (fun hmem => he (List.mem_cons_of_mem _ hmem))
  | write _ hrow _ ih =>
    intro o ho
    rcases List.mem_cons.mp ho with rfl | ho
    · obtain ⟨_, _, _, hrow⟩ := hrow
      rw [(documentRow_ok hrow).2.1]
      intro heq
      exact he (by rw [← heq]; exact List.mem_cons_self)
    · exact ih (fun hmem => he (List.mem_cons_of_mem _ hmem)) o ho

theorem DocumentRows.inScope {drafts : List OperationalDocument} {rows : List OperationalRecord}
    (h : DocumentRows rt sup scope at_ db drafts rows) : ∀ o ∈ rows, o.inScope scope = true := by
  induction h with
  | nil =>
    intro o ho
    cases ho
  | skip _ _ ih => exact ih
  | write _ hrow _ ih =>
    intro o ho
    rcases List.mem_cons.mp ho with rfl | ho
    · obtain ⟨_, _, _, hx⟩ := hrow
      exact (documentRow_ok hx).1
    · exact ih o ho

/-- **The rows of a draft's entity**: none, or the draft's. -/
theorem DocumentRows.named {drafts : List OperationalDocument} {rows : List OperationalRecord}
    (h : DocumentRows rt sup scope at_ db drafts rows)
    (hn : (drafts.map OperationalDocument.entity).Nodup) {draft : OperationalDocument}
    (hd : draft ∈ drafts) :
    (draft.skipped db scope = true ∧ rows.filter (fun o => o.entity = draft.entity) = []) ∨
    (draft.skipped db scope = false ∧ ∃ row, WrittenFor rt sup scope at_ db draft row ∧
      rows.filter (fun o => o.entity = draft.entity) = [row]) := by
  induction h with
  | nil => cases hd
  | @skip x drafts rows hskip hrows ih =>
    rw [List.map_cons, List.nodup_cons] at hn
    rcases List.mem_cons.mp hd with rfl | hd
    · refine .inl ⟨hskip, List.filter_eq_nil_iff.mpr ?_⟩
      intro o ho
      rw [decide_eq_true_eq]
      exact hrows.not_named hn.1 o ho
    · exact ih hn.2 hd
  | @write x drafts row rows hskip hrow hrows ih =>
    rw [List.map_cons, List.nodup_cons] at hn
    have hentity : row.entity = x.entity := by
      obtain ⟨_, _, _, hx⟩ := hrow
      exact (documentRow_ok hx).2.1
    rcases List.mem_cons.mp hd with rfl | hd
    · refine .inr ⟨hskip, row, hrow, ?_⟩
      rw [List.filter_cons_of_pos (by simpa using hentity), List.filter_eq_nil_iff.mpr ?_]
      intro o ho
      rw [decide_eq_true_eq]
      exact hrows.not_named hn.1 o ho
    · have hne : ¬ row.entity = draft.entity := by
        rw [hentity]
        intro heq
        exact hn.1 (by rw [heq]; exact List.mem_map_of_mem hd)
      rw [List.filter_cons_of_neg (by simpa using hne)]
      exact ih hn.2 hd

end Loop

/-! ## §4. What a batch leaves behind. -/

/-- A row as the columns give it back. -/
def OperationalRecord.stored (d : Dialect) (o : OperationalRecord) : OperationalRecord :=
  { o with createdAt := d.stamp o.createdAt, observedAt := o.observedAt.map d.stamp }

section After

variable {rt : Runtime} {d : Dialect} {sup : Supply} {scope : Scope} {at_ : Stamp} {db : Db}
variable {rows : List OperationalRecord} {head : StreamHeadRecord}

theorem operational_append (db : Db) (rows : List OperationalRecord) (head : StreamHeadRecord) :
    ((engine d).commit db (appendWrites [⟨rows.map .operational, head⟩])).operational
      = db.operational ++ rows.map (OperationalRecord.stored d) := by
  have hrows := rows_commit d db (appendWrites [⟨rows.map .operational, head⟩]) .operational
  have hadded : addedRows (appendWrites [⟨rows.map .operational, head⟩]) .operational
      = rows.map .operational := by
    unfold appendWrites
    rw [List.flatMap_cons, List.flatMap_nil, List.append_nil, addedRows_writes,
      List.filter_eq_self]
    intro r hr
    obtain ⟨o, _, rfl⟩ := List.mem_map.mp hr
    rfl
  rw [hadded, List.map_map] at hrows
  have hinj : Function.Injective Row.operational := fun a b h => Row.operational.inj h
  apply hinj.list_map
  rw [List.map_append, List.map_map]
  exact hrows

/-- The versions of an entity after the batch. -/
theorem entityVersions_append (s : Scope) (kind id : PyStr) :
    entityVersions ((engine d).commit db (appendWrites [⟨rows.map .operational, head⟩])) s kind id
      = entityVersions db s kind id ++
        ((rows.filter (fun o => o.entity = (kind, id))).filter (fun o => o.inScope s)).map
          (OperationalRecord.stored d) := by
  unfold entityVersions
  rw [operational_append, List.filter_append, List.filter_map, List.filter_filter]
  congr 2
  apply List.filter_congr
  intro o _
  show (o.inScope s && o.entityKind == kind && o.entityId == id) = _
  rw [Bool.eq_iff_iff]
  simp [OperationalRecord.entity, Prod.ext_iff, and_assoc]

/-- A last row of a greater version is the latest one. -/
theorem latestVersion_append {xs : List OperationalRecord} {r : OperationalRecord}
    (h : ∀ x ∈ xs, x.version < r.version) : latestVersion (xs ++ [r]) = some r := by
  induction xs with
  | nil => rfl
  | cons x xs ih =>
    rw [List.cons_append]
    unfold latestVersion
    rw [ih (fun y hy => h y (List.mem_cons_of_mem _ hy))]
    have hlt := h x List.mem_cons_self
    simp only
    rw [if_neg (by omega)]

/-- Every version lies below the one that is written next. -/
theorem version_le_current (draft : OperationalDocument) :
    ∀ x ∈ entityVersions db scope draft.entityKind.value draft.entityId,
      x.version < currentVersion (draft.latest db scope) + 1 := by
  intro x hx
  unfold OperationalDocument.latest latestOperational
  cases hl : latestVersion (entityVersions db scope draft.entityKind.value draft.entityId) with
  | none =>
    rw [latestVersion_none hl] at hx
    cases hx
  | some r =>
    have hle := latestVersion_max hl x hx
    show x.version < r.version + 1
    omega

/-- **The latest version of a draft's entity after the batch**: the one it had, or the
draft's. -/
theorem latest_after {drafts : List OperationalDocument}
    (h : DocumentRows rt sup scope at_ db drafts rows)
    (hn : (drafts.map OperationalDocument.entity).Nodup) {draft : OperationalDocument}
    (hd : draft ∈ drafts) :
    (draft.skipped db scope = true ∧
      draft.latest ((engine d).commit db (appendWrites [⟨rows.map .operational, head⟩])) scope
        = draft.latest db scope) ∨
    (draft.skipped db scope = false ∧ ∃ row, WrittenFor rt sup scope at_ db draft row ∧
      draft.latest ((engine d).commit db (appendWrites [⟨rows.map .operational, head⟩])) scope
        = some (row.stored d)) := by
  unfold OperationalDocument.latest latestOperational
  rw [entityVersions_append]
  rcases h.named hn hd with ⟨hskip, hnone⟩ | ⟨hskip, row, hrow, hone⟩
  · refine .inl ⟨hskip, ?_⟩
    have hnone' : rows.filter (fun o => o.entity = (draft.entityKind.value, draft.entityId)) = [] :=
      hnone
    rw [hnone', List.filter_nil, List.map_nil, List.append_nil]
  · refine .inr ⟨hskip, row, hrow, ?_⟩
    have hone' : rows.filter (fun o => o.entity = (draft.entityKind.value, draft.entityId))
        = [row] := hone
    obtain ⟨_, _, _, hx⟩ := hrow
    obtain ⟨hin, _, hversion, _⟩ := documentRow_ok hx
    have hin' : [row].filter (fun o => o.inScope scope) = [row] := by simp [hin]
    rw [hone', hin', List.map_singleton]
    apply latestVersion_append
    intro x hx
    show x.version < row.version
    rw [hversion]
    exact version_le_current draft x hx

/-- The other entities keep their versions. -/
theorem entityVersions_other {drafts : List OperationalDocument}
    (h : DocumentRows rt sup scope at_ db drafts rows)
    {s : Scope} {kind id : PyStr}
    (hother : ¬ (s.tenantId.text = scope.tenantId.text ∧
      s.workspaceId.text = scope.workspaceId.text ∧
      (kind, id) ∈ drafts.map OperationalDocument.entity)) :
    entityVersions ((engine d).commit db (appendWrites [⟨rows.map .operational, head⟩])) s kind id
      = entityVersions db s kind id := by
  rw [entityVersions_append]
  have hnil : (rows.filter (fun o => o.entity = (kind, id))).filter (fun o => o.inScope s)
      = [] := by
    rw [List.filter_eq_nil_iff]
    intro o ho hs
    obtain ⟨ho, hentity⟩ := List.mem_filter.mp ho
    obtain ⟨ht, hw⟩ := inScope_ids (h.inScope o ho)
    obtain ⟨ht', hw'⟩ := inScope_ids hs
    apply hother
    refine ⟨ht'.symm.trans ht, hw'.symm.trans hw, ?_⟩
    by_contra hne
    exact h.not_named hne o ho (of_decide_eq_true hentity)
  rw [hnil, List.map_nil, List.append_nil]

end After

/-! ## §5. Bodies that storage gives back equal. -/

mutual
/-- A value without tuples, whose keys are strings. -/
def PyValue.plain : PyValue → Bool
  | .list xs => plainItems xs
  | .tuple _ => false
  | .dict fs => plainFields fs
  | _ => true

def PyValue.plainItems : List PyValue → Bool
  | [] => true
  | x :: xs => x.plain && plainItems xs

def PyValue.plainFields : List (PyKey × PyValue) → Bool
  | [] => true
  | (k, v) :: fs => k.isStr && v.plain && plainFields fs
end

theorem PyValue.plainItems_eq (xs : List PyValue) :
    PyValue.plainItems xs = xs.all PyValue.plain := by
  induction xs with
  | nil => rfl
  | cons x xs ih =>
    unfold PyValue.plainItems
    rw [ih, List.all_cons]

theorem PyValue.plainFields_eq (fs : List (PyKey × PyValue)) :
    PyValue.plainFields fs = fs.all (fun f => f.1.isStr && f.2.plain) := by
  induction fs with
  | nil => rfl
  | cons f fs ih =>
    unfold PyValue.plainFields
    rw [ih, List.all_cons]

theorem eqItems_map (g : PyValue → Json) (xs : List PyValue) :
    Json.eqItems (xs.map g) xs = true ↔ ∀ x ∈ xs, (g x).eqValue x = true := by
  induction xs with
  | nil => simp [Json.eqItems]
  | cons x xs ih =>
    rw [List.map_cons]
    unfold Json.eqItems
    simp only [Bool.and_eq_true, ih, List.forall_mem_cons]

theorem eqFields_iff (xs : List (PyStr × Json)) (ys : List (PyKey × PyValue)) :
    Json.eqFields xs ys = true ↔
      ∀ x ∈ xs, ∃ w, ys.lookup (.str x.1) = some w ∧ x.2.eqValue w = true := by
  induction xs with
  | nil => simp [Json.eqFields]
  | cons x xs ih =>
    unfold Json.eqFields
    rw [Bool.and_eq_true, ih, List.forall_mem_cons]
    cases ys.lookup (PyKey.str x.1) with
    | none => simp
    | some w => simp

/-- Beside a key that is not a string there is no string. -/
theorem not_str_of_sortable {keys : List PyKey} (h : sortableKeys keys = true) {k : PyKey}
    (hk : k ∈ keys) (hstr : k.isStr = false) : ∀ x ∈ keys, x.isStr = false := by
  unfold sortableKeys at h
  rw [Bool.or_eq_true, Bool.or_eq_true, decide_eq_true_eq, List.all_eq_true, List.all_eq_true] at h
  intro x hx
  rcases h with (h | h) | h
  · have hone : x = k := by
      cases keys with
      | nil => cases hx
      | cons y ys =>
        have hnil : ys = [] := List.length_eq_zero_iff.mp (by
          simp only [List.length_cons] at h
          omega)
        rw [hnil, List.mem_singleton] at hx hk
        rw [hx, hk]
    rw [hone]
    exact hstr
  · rw [h k hk] at hstr
    cases hstr
  · have hnum := h x hx
    cases x with
    | str s => cases hnum
    | _ => rfl

section Plain

variable (rt : Runtime)

theorem eqValue_dict {fs : List (PyKey × PyValue)} (hn : (fs.map Prod.fst).Nodup)
    (hs : sortableKeys (fs.map Prod.fst) = true)
    (hfs : ∀ f ∈ fs, (f.2.roundTrip rt).eqValue f.2 = true ↔ f.2.plain = true) :
    ((PyValue.dict fs).roundTrip rt).eqValue (.dict fs) = true ↔
      (PyValue.dict fs).plain = true := by
  rw [PyValue.roundTrip, PyValue.roundTripFields_eq, PyValue.plain, PyValue.plainFields_eq,
    List.all_eq_true]
  unfold Json.eqValue
  rw [Bool.and_eq_true, eqFields_iff, List.length_map, beq_self_eq_true]
  constructor
  · intro h f hf
    obtain ⟨w, hlookup, heq⟩ := h.2 _ (List.mem_map_of_mem hf)
    cases hk : f.1.isStr with
    | false =>
      -- the text of the key is a string, and no key of the dict is one
      have hmem : PyKey.str (f.1.text rt) ∈ fs.map Prod.fst :=
        List.mem_map.mpr ⟨_, List.lookup_eq_some_iff.mp hlookup |>.elim (fun l h => by
          obtain ⟨r, hr, _⟩ := h
          rw [hr]
          exact List.mem_append_right _ List.mem_cons_self), rfl⟩
      have hno := not_str_of_sortable hs (List.mem_map_of_mem hf) hk _ hmem
      cases hno
    | true =>
      obtain ⟨k, v⟩ := f
      cases k with
      | str s =>
        have hself := Json.lookup_of_mem hn hf
        have hsame : fs.lookup (PyKey.str s) = some w := hlookup
        rw [hself] at hsame
        cases hsame
        exact (hfs _ hf).mp heq
      | _ => cases hk
  · intro h
    refine ⟨rfl, ?_⟩
    intro x hx
    obtain ⟨f, hf, rfl⟩ := List.mem_map.mp hx
    obtain ⟨hk, hplain⟩ := Bool.and_eq_true_iff.mp (h f hf)
    obtain ⟨k, v⟩ := f
    cases k with
    | str s => exact ⟨v, Json.lookup_of_mem hn hf, (hfs _ hf).mpr hplain⟩
    | _ => cases hk

mutual
/-- **A value equals what storage makes of it exactly where it is plain.** -/
theorem eqValue_roundTrip (v : PyValue) (hn : v.nodupKeys = true) (he : v.encodable = true) :
    (v.roundTrip rt).eqValue v = true ↔ v.plain = true := by
  cases v with
  | none => exact ⟨fun _ => rfl, fun _ => rfl⟩
  | bool b =>
    refine ⟨fun _ => rfl, fun _ => ?_⟩
    show (Num.fin (if b then 1 else 0)).pyEq (.fin (if b then 1 else 0)) = true
    exact Num.pyEq_refl (fun h => by cases h)
  | str s =>
    refine ⟨fun _ => rfl, fun _ => ?_⟩
    show (s == s) = true
    exact beq_self_eq_true s
  | int n =>
    refine ⟨fun _ => rfl, fun _ => ?_⟩
    show (Num.fin n).pyEq (.fin n) = true
    exact Num.pyEq_refl (fun h => by cases h)
  | float f =>
    refine ⟨fun _ => rfl, fun _ => ?_⟩
    show f.num.pyEq f.num = true
    exact Num.pyEq_refl (PyFloat.num_ne_nan he)
  | list xs =>
    rw [PyValue.nodupKeys, PyValue.nodupKeysItems_eq, List.all_eq_true] at hn
    rw [PyValue.encodable, PyValue.encodableItems_eq, List.all_eq_true] at he
    rw [PyValue.roundTrip, PyValue.roundTripItems_eq, PyValue.plain, PyValue.plainItems_eq,
      List.all_eq_true]
    unfold Json.eqValue
    rw [eqItems_map]
    have hitems := eqValue_roundTrip_items xs hn he
    exact ⟨fun h x hx => (hitems x hx).mp (h x hx), fun h x hx => (hitems x hx).mpr (h x hx)⟩
  | tuple xs =>
    rw [PyValue.roundTrip, PyValue.plain]
    constructor
    · intro h
      unfold Json.eqValue at h
      cases h
    · intro h
      cases h
  | dict fs =>
    rw [PyValue.nodupKeys, PyValue.nodupKeysFields_eq, Bool.and_eq_true, List.all_eq_true,
      decide_eq_true_eq] at hn
    rw [PyValue.encodable, PyValue.encodableFields_eq, Bool.and_eq_true, List.all_eq_true] at he
    exact eqValue_dict rt hn.1 he.1 (eqValue_roundTrip_fields fs hn.2
      (fun f hf => (Bool.and_eq_true_iff.mp (he.2 f hf)).2))

theorem eqValue_roundTrip_items (xs : List PyValue) (hn : ∀ x ∈ xs, x.nodupKeys = true)
    (he : ∀ x ∈ xs, x.encodable = true) :
    ∀ x ∈ xs, (x.roundTrip rt).eqValue x = true ↔ x.plain = true := by
  cases xs with
  | nil =>
    intro x hx
    cases hx
  | cons y ys =>
    intro x hx
    rcases List.mem_cons.mp hx with h | h
    · rw [h]
      exact eqValue_roundTrip y (hn y List.mem_cons_self) (he y List.mem_cons_self)
    · exact eqValue_roundTrip_items ys (fun z hz => hn z (List.mem_cons_of_mem _ hz))
        (fun z hz => he z (List.mem_cons_of_mem _ hz)) x h

theorem eqValue_roundTrip_fields (fs : List (PyKey × PyValue))
    (hn : ∀ f ∈ fs, f.2.nodupKeys = true) (he : ∀ f ∈ fs, f.2.encodable = true) :
    ∀ f ∈ fs, (f.2.roundTrip rt).eqValue f.2 = true ↔ f.2.plain = true := by
  cases fs with
  | nil =>
    intro f hf
    cases hf
  | cons g gs =>
    intro f hf
    rcases List.mem_cons.mp hf with h | h
    · rw [h]
      exact eqValue_roundTrip g.2 (hn g List.mem_cons_self) (he g List.mem_cons_self)
    · exact eqValue_roundTrip_fields gs (fun z hz => hn z (List.mem_cons_of_mem _ hz))
        (fun z hz => he z (List.mem_cons_of_mem _ hz)) f h
end

end Plain

/-! ## §6. What a batch establishes. -/

/-- A stored document has the JSON representation of the draft's. -/
def SameDocument (rt : Runtime) (stored : Json) (fields : List (PyKey × PyValue)) : Prop :=
  canonicalJson rt stored = canonicalJson rt ((PyValue.dict fields).roundTrip rt)

/-- The record equals the draft in every field that the draft carries. -/
structure OperationalDocument.Equals (rt : Runtime) (draft : OperationalDocument)
    (r : OperationalRecord) : Prop where
  name : r.name = draft.name
  body : SameDocument rt r.bodyJson draft.body
  truthLabel : r.truthLabel = draft.truthLabel.value
  evidenceRefs : r.evidenceRefs = Json.strs draft.evidenceRefs
  sourceRevision : r.sourceRevision = draft.sourceRevision
  observedAt : r.observedAt.map Stamp.instant = draft.observedAt.map Stamp.instant
  metadata : SameDocument rt r.metadataJson draft.metadata

/-- The batch is established in `db'`. -/
structure Established (rt : Runtime) (d : Dialect) (scope : Scope)
    (drafts : List OperationalDocument) (db db' : Db) : Prop where
  latest : ∀ draft ∈ drafts, ∃ r, draft.latest db' scope = some r ∧ draft.Equals rt r
  others : ∀ (s : Scope) (kind id : PyStr),
    ¬ (s.tenantId.text = scope.tenantId.text ∧ s.workspaceId.text = scope.workspaceId.text ∧
      (kind, id) ∈ drafts.map OperationalDocument.entity) →
    entityVersions db' s kind id = entityVersions db s kind id
  again : ∀ sup createdAt, (upsertDocuments rt sup scope drafts createdAt).exec (engine d)
    (.idle db' []) = (.ok [], .idle db' [])

/-- The record agrees with the draft in what the comparison does not look at, and in how
the body is written. -/
def OperationalDocument.Repeats (rt : Runtime) (draft : OperationalDocument)
    (r : OperationalRecord) : Prop :=
  r.name = draft.name ∧ SameDocument rt r.bodyJson draft.body ∧
    r.evidenceRefs = Json.strs draft.evidenceRefs ∧
    r.observedAt.map Stamp.instant = draft.observedAt.map Stamp.instant ∧
    SameDocument rt r.metadataJson draft.metadata

/-- The column keeps the instant of the draft's observation. -/
def OperationalDocument.KeepsInstant (d : Dialect) (draft : OperationalDocument) : Prop :=
  d = .postgresql ∨ ∀ s, draft.observedAt = some s → s.offset.getD 0 = 0

/-- What the batch needs of a draft: one that it leaves out repeats the latest version in
the fields not compared; one that it writes has an observation time that storage
keeps, and a body without tuples and with string keys only. -/
def OperationalDocument.Admissible (rt : Runtime) (d : Dialect) (db : Db) (scope : Scope)
    (draft : OperationalDocument) : Prop :=
  (draft.skipped db scope = true → ∀ r, draft.latest db scope = some r → draft.Repeats rt r) ∧
  (draft.skipped db scope = false →
    draft.KeepsInstant d ∧ (PyValue.dict draft.body).plain = true)

section Batch

variable {rt : Runtime} {d : Dialect} {sup : Supply} {scope : Scope} {at_ : Stamp} {db db' : Db}
variable {drafts : List OperationalDocument}

theorem stamp_instant_iff (s : Stamp) :
    (d.stamp s).instant = s.instant ↔ d = .postgresql ∨ s.offset.getD 0 = 0 := by
  cases d with
  | sqlite =>
    unfold Dialect.stamp Stamp.instant
    show s.wall - 0 = s.wall - s.offset.getD 0 ↔ _
    constructor
    · intro h
      exact .inr (by omega)
    · intro h
      rcases h with h | h
      · cases h
      · omega
  | postgresql =>
    unfold Dialect.stamp Stamp.instant
    show s.wall - s.offset.getD 0 - 0 = s.wall - s.offset.getD 0 ↔ _
    simp

theorem keepsInstant_iff (draft : OperationalDocument) :
    (draft.observedAt.map d.stamp).map Stamp.instant = draft.observedAt.map Stamp.instant ↔
      draft.KeepsInstant d := by
  unfold OperationalDocument.KeepsInstant
  cases draft.observedAt with
  | none => simp
  | some s =>
    simp only [Option.map_some, Option.some.injEq, stamp_instant_iff, forall_eq']

theorem DocumentRows.all_skipped (h : DocumentRows rt sup scope at_ db drafts []) :
    ∀ draft ∈ drafts, draft.skipped db scope = true := by
  generalize hrows : ([] : List OperationalRecord) = rows at h
  induction h with
  | nil =>
    intro draft hd
    cases hd
  | skip hskip _ ih =>
    intro draft hd
    rcases List.mem_cons.mp hd with rfl | hd
    · exact hskip
    · exact ih hrows draft hd
  | write _ _ _ _ => cases hrows

/-- What the transaction does when it succeeds. -/
theorem upsertDocumentsBody_ok {result : List OperationalRecord} {ws : List Write}
    (h : (upsertDocumentsBody rt sup scope drafts at_).eval (engine d) db [] = .ok (result, ws)) :
    scopeAsserted db scope = true ∧ DocumentRows rt sup scope at_ db drafts result ∧
      ∃ head head', headOf db scope .operational = some head ∧
        head'.names scope.tenantId.text scope.workspaceId.text StreamKind.operational.value = true ∧
        ((result = [] ∧ ws = []) ∨
          ws = appendWrites [⟨result.map .operational, head'⟩]) := by
  unfold upsertDocumentsBody at h
  rw [Body.bind_eq] at h
  obtain ⟨_, ws₁, hscope, h⟩ := eval_bind_ok _ h
  rw [eval_assertScope] at hscope
  split at hscope
  · next hs =>
    cases hscope
    rw [Body.bind_eq] at h
    obtain ⟨head, ws₂, hhead, h⟩ := eval_bind_ok _ h
    obtain ⟨rfl, hfound⟩ := eval_lockedHead_ok hhead
    rw [Body.bind_eq] at h
    obtain ⟨⟨head', written⟩, ws₃, hloop, h⟩ := eval_bind_ok _ h
    obtain ⟨rfl, hnames, rows, hrows, hdocs⟩ := eval_documentLoop_ok (names_of_head? hfound) hloop
    rw [List.nil_append] at hrows
    subst hrows
    simp only at h
    split at h
    · next hempty =>
      cases h
      rw [List.isEmpty_iff] at hempty
      rw [hempty] at hdocs
      exact ⟨hs, hdocs, head, head', hfound, hnames, .inl ⟨rfl, rfl⟩⟩
    · rw [Body.bind_eq] at h
      obtain ⟨_, ws₄, hflush, h⟩ := eval_bind_ok _ h
      cases h
      obtain ⟨hws, _⟩ := eval_flush_ok _ hflush
      exact ⟨hs, hdocs, head, head', hfound, hnames, .inr hws⟩
  · cases hscope

/-- A database after the batch. -/
structure AfterBatch (rt : Runtime) (d : Dialect) (scope : Scope)
    (drafts : List OperationalDocument) (db db' : Db) : Prop where
  distinct : (drafts.map OperationalDocument.identity).Nodup
  named : ∀ draft ∈ drafts,
    (draft.skipped db scope = true ∧ draft.latest db' scope = draft.latest db scope) ∨
    (draft.skipped db scope = false ∧ ∃ sup at_ row, WrittenFor rt sup scope at_ db draft row ∧
      draft.latest db' scope = some (row.stored d))
  others : ∀ (s : Scope) (kind id : PyStr),
    ¬ (s.tenantId.text = scope.tenantId.text ∧ s.workspaceId.text = scope.workspaceId.text ∧
      (kind, id) ∈ drafts.map OperationalDocument.entity) →
    entityVersions db' s kind id = entityVersions db s kind id
  asserted : drafts ≠ [] → scopeAsserted db' scope = true
  head : drafts ≠ [] → ∃ head, headOf db' scope .operational = some head

theorem entity_nodup (h : (drafts.map OperationalDocument.identity).Nodup) :
    (drafts.map OperationalDocument.entity).Nodup := by
  have hmap : drafts.map OperationalDocument.entity
      = (drafts.map OperationalDocument.identity).map (fun i => (i.1.value, i.2)) := by
    rw [List.map_map]
    rfl
  rw [hmap]
  apply h.map
  intro a b hab
  obtain ⟨hkind, hid⟩ := Prod.mk.inj hab
  exact Prod.ext (OperationalEntityKind.value_inj hkind) hid

/-- **A batch that succeeds leaves such a database behind.** -/
theorem afterBatch_of_exec {createdAt : Option Stamp} {faults fs : List (Option Exn)}
    {rows : List OperationalRecord}
    (h : (upsertDocuments rt sup scope drafts createdAt).exec (engine d) (.idle db faults)
      = (.ok rows, .idle db' fs)) : AfterBatch rt d scope drafts db db' := by
  unfold upsertDocuments at h
  split at h
  · cases h
  · next hn =>
    rw [not_not] at hn
    split at h
    · next hempty =>
      rw [List.isEmpty_iff] at hempty
      subst hempty
      cases h
      refine ⟨hn, ?_, fun _ _ _ _ => rfl, fun hne => absurd rfl hne, fun hne => absurd rfl hne⟩
      intro draft hd
      cases hd
    · simp only at h
      rw [exec_tryCatch] at h
      rcases exec_transaction (engine d) (upsertDocumentsBody rt sup scope drafts
        (createdAt.getD (sup.now 0).stamp)) db faults with ⟨e, es, hx⟩ | ⟨a, ws, es, heval, hx⟩
      · rw [hx] at h
        simp only at h
        split at h
        · cases h
        · cases h
      · rw [hx] at h
        cases h
        obtain ⟨hs, hdocs, head, head', hhead, hnames, hws⟩ := upsertDocumentsBody_ok heval
        rcases hws with ⟨rfl, rfl⟩ | rfl
        · exact ⟨hn, fun draft hd => .inl ⟨hdocs.all_skipped draft hd, rfl⟩, fun _ _ _ _ => rfl,
            fun _ => hs, fun _ => ⟨head, hhead⟩⟩
        · refine ⟨hn, ?_, ?_, ?_, ?_⟩
          · intro draft hd
            rcases latest_after hdocs (entity_nodup hn) hd with hskip | ⟨hw, row, hrow, hl⟩
            · exact .inl hskip
            · exact .inr ⟨hw, _, _, row, hrow, hl⟩
          · intro s kind id hother
            exact entityVersions_other hdocs hother
          · intro _
            exact scopeAsserted_grows hs (commit_grows d db _)
          · intro _
            let a : StreamAppend := ⟨rows.map .operational, head'⟩
            have hmoved : headOf ((engine d).commit db
                (appendWrites ([(StreamKind.operational, a)].map Prod.snd))) scope .operational
                = some { a.head with updatedAt := d.stamp a.head.updatedAt } :=
              headOf_append (by simp) (by simpa using hnames) List.mem_cons_self hhead
            exact ⟨_, hmoved⟩

/-- A call that returns leaves no transaction open. -/
theorem upsertDocuments_returns {createdAt : Option Stamp} {faults : List (Option Exn)}
    (h : ((upsertDocuments rt sup scope drafts createdAt).exec (engine d)
      (.idle db faults)).1.isOk = true) : ∃ rows db' fs,
    (upsertDocuments rt sup scope drafts createdAt).exec (engine d) (.idle db faults)
      = (.ok rows, .idle db' fs) := by
  unfold upsertDocuments at h ⊢
  split
  · next hn =>
    rw [if_pos hn] at h
    cases h
  · next hn =>
    rw [if_neg hn] at h
    split
    · exact ⟨_, _, _, rfl⟩
    · next hempty =>
      rw [if_neg hempty] at h
      simp only at h ⊢
      rw [exec_tryCatch] at h ⊢
      rcases exec_transaction (engine d) (upsertDocumentsBody rt sup scope drafts
        (createdAt.getD (sup.now 0).stamp)) db faults with ⟨e, es, hx⟩ | ⟨a, ws, es, _, hx⟩
      · rw [hx] at h
        simp only at h
        split at h
        · cases h
        · cases h
      · rw [hx]
        exact ⟨_, _, _, rfl⟩

/-- A batch that leaves every draft out writes nothing. -/
theorem upsertDocuments_skips {createdAt : Option Stamp}
    (hn : (drafts.map OperationalDocument.identity).Nodup) (hs : scopeAsserted db scope = true)
    (hhead : (headOf db scope .operational).isSome = true)
    (h : ∀ draft ∈ drafts, draft.skipped db scope = true) :
    (upsertDocuments rt sup scope drafts createdAt).exec (engine d) (.idle db [])
      = (.ok [], .idle db []) := by
  obtain ⟨head, hhead⟩ := Option.isSome_iff_exists.mp hhead
  unfold upsertDocuments
  rw [if_neg (not_not.mpr hn)]
  split
  · rfl
  · have heval : (upsertDocumentsBody rt sup scope drafts
        (createdAt.getD (sup.now 0).stamp)).eval (engine d) db [] = .ok ([], []) := by
      unfold upsertDocumentsBody
      rw [Body.bind_eq, eval_bind, eval_assertScope, if_pos hs]
      simp only
      rw [Body.bind_eq, eval_bind, eval_lockedHead, hhead]
      simp only
      rw [Body.bind_eq, eval_bind, eval_documentLoop_skips h]
      rfl
    simp only
    rw [exec_tryCatch, exec_transaction_noFaults, heval]
    rfl

/-- The batch writes nothing exactly where it leaves every draft out. -/
theorem again_iff (ha : AfterBatch rt d scope drafts db db') (createdAt : Option Stamp) :
    (upsertDocuments rt sup scope drafts createdAt).exec (engine d) (.idle db' [])
      = (.ok [], .idle db' []) ↔ ∀ draft ∈ drafts, draft.skipped db' scope = true := by
  by_cases hempty : drafts = []
  · subst hempty
    constructor
    · intro _ draft hd
      cases hd
    · intro _
      rfl
  · constructor
    · intro h
      unfold upsertDocuments at h
      rw [if_neg (not_not.mpr ha.distinct), if_neg (by simpa using hempty)] at h
      simp only at h
      rw [exec_tryCatch, exec_transaction_noFaults] at h
      cases heval : (upsertDocumentsBody rt sup scope drafts
          (createdAt.getD (sup.now 0).stamp)).eval (engine d) db' [] with
      | error e =>
        rw [heval] at h
        simp only at h
        split at h
        · cases h
        · cases h
      | ok result =>
        rw [heval] at h
        obtain ⟨a, ws⟩ := result
        have hnil : a = [] := Except.ok.inj (congrArg Prod.fst h)
        subst hnil
        exact (upsertDocumentsBody_ok heval).2.1.all_skipped
    · intro h
      exact upsertDocuments_skips ha.distinct (ha.asserted hempty)
        (Option.isSome_iff_exists.mpr (ha.head hempty)) h

/-- A written draft is left out the next time exactly where its body is plain. -/
theorem skipped_written {draft : OperationalDocument} {row : OperationalRecord}
    (hrow : WrittenFor rt sup scope at_ db draft row)
    (hl : draft.latest db' scope = some (row.stored d)) :
    draft.skipped db' scope = true ↔ (PyValue.dict draft.body).plain = true := by
  obtain ⟨_, _, _, hx⟩ := hrow
  obtain ⟨_, _, _, _, htruth, hbody, _, hsource, _⟩ := documentRow_ok hx
  obtain ⟨hn, he⟩ := draft.documents draft.body List.mem_cons_self
  unfold OperationalDocument.skipped
  rw [hl, Option.any_some]
  unfold unchangedDocument
  show (row.bodyJson.eqValue (.dict draft.body) && row.truthLabel == draft.truthLabel.value &&
    row.sourceRevision == draft.sourceRevision) = true ↔ _
  rw [htruth, hsource, hbody, beq_self_eq_true, beq_self_eq_true, Bool.and_true, Bool.and_true]
  exact eqValue_roundTrip rt _ hn he

/-- A written draft is established exactly where the column keeps its observation time. -/
theorem equals_written {draft : OperationalDocument} {row : OperationalRecord}
    (hrow : WrittenFor rt sup scope at_ db draft row) :
    draft.Equals rt (row.stored d) ↔ draft.KeepsInstant d := by
  obtain ⟨_, _, _, hx⟩ := hrow
  obtain ⟨_, _, _, hname, htruth, hbody, hrefs, hsource, hobserved, hmetadata, _⟩ :=
    documentRow_ok hx
  rw [← keepsInstant_iff]
  constructor
  · intro h
    have hobs := h.observedAt
    rw [← hobs]
    show _ = (row.observedAt.map d.stamp).map Stamp.instant
    rw [hobserved]
  · intro h
    refine ⟨hname, ?_, htruth, hrefs, hsource, ?_, ?_⟩
    · show canonicalJson rt row.bodyJson = _
      rw [hbody]
    · show (row.observedAt.map d.stamp).map Stamp.instant = _
      rw [hobserved]
      exact h
    · show canonicalJson rt row.metadataJson = _
      rw [hmetadata]

/-- A draft that is left out is established exactly where it repeats the latest
version. -/
theorem equals_skipped {draft : OperationalDocument} {r : OperationalRecord}
    (hskip : draft.skipped db scope = true) (hl : draft.latest db scope = some r) :
    draft.Equals rt r ↔ draft.Repeats rt r := by
  unfold OperationalDocument.skipped at hskip
  rw [hl, Option.any_some] at hskip
  unfold unchangedDocument at hskip
  rw [Bool.and_eq_true, Bool.and_eq_true, beq_iff_eq, beq_iff_eq] at hskip
  obtain ⟨⟨_, htruth⟩, hsource⟩ := hskip
  constructor
  · intro h
    exact ⟨h.name, h.body, h.evidenceRefs, h.observedAt, h.metadata⟩
  · intro h
    obtain ⟨hname, hbody, hrefs, hobserved, hmetadata⟩ := h
    exact ⟨hname, hbody, htruth, hrefs, hsource, hobserved, hmetadata⟩

end Batch

/-- **A batch that succeeds has established its drafts exactly where each of them is
admissible.** -/
theorem upsert_batch_established (rt : Runtime) (d : Dialect) (sup : Supply) (scope : Scope)
    (drafts : List OperationalDocument) (createdAt : Option Stamp) (db db' : Db)
    (faults fs : List (Option Exn)) (rows : List OperationalRecord)
    (h : (upsertDocuments rt sup scope drafts createdAt).exec (engine d) (.idle db faults)
      = (.ok rows, .idle db' fs)) :
    Established rt d scope drafts db db' ↔
      ∀ draft ∈ drafts, draft.Admissible rt d db scope := by
  have ha := afterBatch_of_exec h
  constructor
  · intro he draft hd
    obtain ⟨r, hr, hequals⟩ := he.latest draft hd
    have hskips := (again_iff ha none).mp (he.again sup none) draft hd
    rcases ha.named draft hd with ⟨hskip, hl⟩ | ⟨hskip, _, _, row, hrow, hl⟩
    · refine ⟨?_, fun hw => by rw [hskip] at hw; cases hw⟩
      intro _ r' hr'
      have hsame : r' = r := by
        rw [hl, hr'] at hr
        exact Option.some.inj hr
      rw [hsame]
      rw [hl] at hr
      exact (equals_skipped hskip hr).mp hequals
    · refine ⟨(fun hw => by rw [hskip] at hw; cases hw), fun _ => ⟨?_, ?_⟩⟩
      · have hsame : r = row.stored d := by
          rw [hl] at hr
          exact (Option.some.inj hr).symm
        rw [hsame] at hequals
        exact (equals_written hrow).mp hequals
      · exact (skipped_written hrow hl).mp hskips
  · intro hadmissible
    refine ⟨?_, ha.others, ?_⟩
    · intro draft hd
      obtain ⟨hs, hw⟩ := hadmissible draft hd
      rcases ha.named draft hd with ⟨hskip, hl⟩ | ⟨hskip, _, _, row, hrow, hl⟩
      · have hsome := hskip
        unfold OperationalDocument.skipped at hsome
        obtain ⟨r, hr, _⟩ := Option.any_eq_true _ _ |>.mp hsome
        exact ⟨r, hl.trans hr, (equals_skipped hskip hr).mpr (hs hskip r hr)⟩
      · exact ⟨_, hl, (equals_written hrow).mpr (hw hskip).1⟩
    · intro sup' createdAt'
      apply (again_iff ha createdAt').mpr
      intro draft hd
      rcases ha.named draft hd with ⟨hskip, hl⟩ | ⟨hskip, _, _, row, hrow, hl⟩
      · unfold OperationalDocument.skipped at hskip ⊢
        rw [hl]
        exact hskip
      · exact (skipped_written hrow hl).mpr ((hadmissible draft hd).2 hskip).2

/-! Two drafts of one event, `deploy` and `release`, in a workspace without records. -/

def sampleDocument (name : PyStr) : OperationalDocument where
  entityKind := .incidentEvent
  entityId := py "event-1"
  name := name
  body := [(.str (py "state"), .str (py "open"))]
  truthLabel := .sample
  evidenceRefs := []
  sourceRevision := none
  observedAt := none
  metadata := []
  documents := by decide +kernel

def sampleStore : Db := runCalls .ascii .sqlite Db.empty sampleSetup

/-- The batch of one draft. -/
def sampleBatch (name : PyStr) : StoreProg (List OperationalRecord) :=
  upsertDocuments .ascii (.sample (py "c")) sampleScope [sampleDocument name] none

/-- The database after the batch of `deploy`. -/
def deployedStore : Db := ((sampleBatch (py "deploy")).exec (engine .sqlite)
  (.idle sampleStore [])).2.db

/-- **A batch that succeeds and keeps the old name of its entity.** -/
theorem upsert_batch_keeps_name : ∃ rows db',
    (sampleBatch (py "release")).exec (engine .sqlite) (.idle deployedStore [])
      = (.ok rows, .idle db' []) ∧
    ¬ Established .ascii .sqlite sampleScope [sampleDocument (py "release")] deployedStore db' := by
  have hskip : (sampleDocument (py "release")).skipped deployedStore sampleScope = true := by
    decide +kernel
  have hname : ((sampleDocument (py "release")).latest deployedStore sampleScope).map
      OperationalRecord.name = some (py "deploy") := by decide +kernel
  refine ⟨[], deployedStore, ?_, ?_⟩
  · apply upsertDocuments_skips (by decide +kernel) (by decide +kernel) (by decide +kernel)
    intro draft hd
    rw [List.mem_singleton.mp hd]
    exact hskip
  · intro he
    obtain ⟨r, hr, hequals⟩ := he.latest _ List.mem_cons_self
    rw [hr, Option.map_some, hequals.name] at hname
    revert hname
    decide

/-- A batch whose draft is established. -/
theorem upsert_batch_established_sample : ∃ db',
    Established .ascii .sqlite sampleScope [sampleDocument (py "deploy")] sampleStore db' := by
  have hrun : ∃ rows db' fs, (sampleBatch (py "deploy")).exec (engine .sqlite)
      (.idle sampleStore []) = (.ok rows, .idle db' fs) :=
    upsertDocuments_returns (by decide +kernel)
  obtain ⟨rows, db', fs, hrun⟩ := hrun
  refine ⟨db', (upsert_batch_established .ascii .sqlite (.sample (py "c")) sampleScope
    [sampleDocument (py "deploy")] none sampleStore db' [] fs rows hrun).mpr ?_⟩
  intro draft hd
  rw [List.mem_singleton.mp hd]
  have hnew : (sampleDocument (py "deploy")).skipped sampleStore sampleScope = false := by
    decide +kernel
  constructor
  · intro hskip
    rw [hnew] at hskip
    cases hskip
  · intro _
    refine ⟨.inr ?_, by decide +kernel⟩
    intro s hs
    cases hs

end Lyte
