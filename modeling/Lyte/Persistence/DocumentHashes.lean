import Lyte.Connectors.StrictJson
import Lyte.Domain.PyValue
import Lyte.Governance.MemoryDrafts
import Lyte.Persistence.Store

/-
  Lyte.Persistence.DocumentHashes — documents that hash alike after storage.

  A receipt's payload, a memory's metadata, a trace's attributes and an entity's
  body and metadata are free-form documents.  A record hash is computed over the
  basis with the document as the caller passed it, and recomputed over what the
  JSON column gives back.

      document_hash_stable   the two agree exactly where the keys of every dict
                             of the documents sort as their texts do; numbers as
                             keys need not.
-/

namespace Lyte

/-! ## §1. Admission. -/

section Admission

variable (rt : Runtime)

/-- `str(key)`, the name under which the guards see a key. -/
def PyKey.name : PyKey → PyStr
  | .none => py "None"
  | .bool true => py "True"
  | .bool false => py "False"
  | .int n => decimalInt n
  | .float f => rt.floatRepr f
  | .str s => s

mutual
/-- The value as the guards walk over it: the names of the keys, lists for tuples. -/
def PyValue.named : PyValue → Json
  | .none => .null
  | .bool b => .bool b
  | .int n => .int n
  | .float f => .float f
  | .str s => .str s
  | .list xs => .list (namedItems xs)
  | .tuple xs => .list (namedItems xs)
  | .dict fs => .dict (namedFields fs)

def PyValue.namedItems : List PyValue → List Json
  | [] => []
  | x :: xs => x.named :: namedItems xs

def PyValue.namedFields : List (PyKey × PyValue) → List (PyStr × Json)
  | [] => []
  | (k, v) :: fs => (k.name rt, v.named) :: namedFields fs
end

/-- The constructors that take a free-form document. -/
inductive DocumentKind where
  | receiptPayload | memoryMetadata | traceAttributes | operationalBody | operationalMetadata
deriving DecidableEq

namespace DocumentKind

/-- The field of `data` that holds the document. -/
def field : DocumentKind → PyStr
  | .receiptPayload => py "payload"
  | .memoryMetadata => py "metadata"
  | .traceAttributes => py "attributes"
  | .operationalBody => py "body"
  | .operationalMetadata => py "metadata"

/-- The path that an error of the credential guard names. -/
def path : DocumentKind → PyStr
  | .receiptPayload => py "payload"
  | .memoryMetadata => py "memory.metadata"
  | .traceAttributes => py "attributes"
  | .operationalBody => py "operational.body"
  | .operationalMetadata => py "operational.metadata"

/-- The checks that the constructor makes of the document: `ReceiptDraft` and
`OperationalRecordDraft` also write it once, `MemoryDraft` has a guard of its own. -/
def admits (kind : DocumentKind) (fields : List (PyKey × PyValue)) : Bool :=
  let guarded := (assertNoSensitiveKeys rt ((PyValue.dict fields).named rt) kind.path).isOk
  match kind with
  | .receiptPayload | .operationalBody | .operationalMetadata =>
      guarded && ((PyValue.dict fields).canonicalJson rt).isSome
  | .traceAttributes => guarded
  | .memoryMetadata =>
      !(fields.map Prod.fst).contains (.str (py "subject_dimensions")) && guarded &&
        (assertSummaryMetadata rt ((PyValue.dict fields).named rt)).isOk

/-- What the row holds: a memory's metadata gets its subject dimensions added. -/
def stored (kind : DocumentKind) (fields : List (PyKey × PyValue))
    (dimensions : List (PyStr × List PyStr)) : PyValue :=
  match kind with
  | .memoryMetadata => .dict (fields ++ [(.str (py "subject_dimensions"),
      .dict (dimensions.map (fun p => (.str p.1, .list (p.2.map .str)))))])
  | _ => .dict fields

end DocumentKind

end Admission

/-! ## §2. Rows. -/

/-- The fields of a basis around its `data`. -/
structure RowHeader where
  schema : PyStr
  scope : Scope
  streamKind : StreamKind
  sequence : Int
  previousHash : Option PyStr
  createdAt : PyStr

/-- Fields under string keys. -/
def strFields (fields : List (PyStr × PyValue)) : List (PyKey × PyValue) :=
  fields.map (fun f => (.str f.1, f.2))

/-- A nullable string. -/
def PyValue.ofNullable (s : Option PyStr) : PyValue := s.elim .none .str

/-- The entries of a basis. -/
def RowHeader.entries (row : RowHeader) (data : List (PyStr × PyValue)) : List (PyStr × PyValue) := [
  (py "schema", .str row.schema),
  (py "tenant_id", .str row.scope.tenantId.text),
  (py "workspace_id", .str row.scope.workspaceId.text),
  (py "stream_kind", .str row.streamKind.value),
  (py "sequence", .int row.sequence),
  (py "previous_hash", .ofNullable row.previousHash),
  (py "created_at", .str row.createdAt),
  (py "data", .dict (strFields data))]

/-- `_basis`, of a row whose `data` hold any Python values. -/
def RowHeader.basis (row : RowHeader) (data : List (PyStr × PyValue)) : PyValue :=
  .dict (strFields (row.entries data))

/-- `sha256_json`, `none` where it raises. -/
def PyValue.sha256Json (rt : Runtime) (v : PyValue) : Option PyStr :=
  (v.canonicalJson rt).bind (fun text => (sha256Text rt text).toOption)

/-- A document that its constructor admitted and that was appended with the record
hash `h`. -/
structure Appended (rt : Runtime) (kind : DocumentKind) (fields : List (PyKey × PyValue))
    (dimensions : List (PyStr × List PyStr)) (row : RowHeader) (data : List (PyStr × PyValue))
    (h : PyStr) : Prop where
  admitted : kind.admits rt fields = true
  held : (kind.field, kind.stored fields dimensions) ∈ data
  /-- A Python dict has no key twice. -/
  dicts : (row.basis data).nodupKeys = true
  hashed : (row.basis data).sha256Json rt = some h

/-- The record hash that `verify_chain` computes from the stored basis. -/
def recomputedHash (rt : Runtime) (row : RowHeader) (data : List (PyStr × PyValue)) :
    Except Exn PyStr :=
  sha256Json rt ((row.basis data).roundTrip rt)

/-! ## §3. String keys. -/

theorem sortItems_strFields (fs : List (PyStr × PyValue)) :
    sortItems (strFields fs) = strFields (sortByKey fs) := by
  have hinsert : ∀ (f : PyStr × PyValue) (gs : List (PyStr × PyValue)),
      (strFields gs).orderedInsert (fun a b => a.1.le b.1 = true) (.str f.1, f.2)
        = strFields (insertByKey f gs) := by
    intro f gs
    induction gs with
    | nil => rfl
    | cons g gs ih =>
      unfold strFields insertByKey
      rw [List.map_cons, List.orderedInsert_cons]
      by_cases h : (PyKey.str f.1).le (.str g.1) = true
      · rw [if_pos h, if_pos (show strLe f.1 g.1 = true from h)]
        rfl
      · rw [if_neg h, if_neg (show ¬ strLe f.1 g.1 = true from h), List.map_cons]
        exact congrArg _ ih
  induction fs with
  | nil => rfl
  | cons f fs ih =>
    unfold sortItems at ih ⊢
    show ((strFields fs).insertionSort _).orderedInsert _ _ = _
    rw [ih, hinsert]
    rfl

theorem sortable_strFields (fs : List (PyStr × PyValue)) :
    sortableKeys ((strFields fs).map Prod.fst) = true := by
  unfold sortableKeys strFields
  rw [Bool.or_eq_true, Bool.or_eq_true]
  refine .inl (.inr ?_)
  rw [List.map_map, List.all_map]
  exact List.all_eq_true.mpr (fun _ _ => rfl)

/-- A dict of string keys is in order where its values are. -/
theorem textOrdered_strFields (rt : Runtime) (fs : List (PyStr × PyValue)) :
    (PyValue.dict (strFields fs)).textOrdered rt = true ↔
      ∀ f ∈ fs, f.2.textOrdered rt = true := by
  have hsorted : textSorted ((sortItems (strFields fs)).map (fun f => f.1.text rt)) = true := by
    rw [sortItems_strFields, textSorted_iff]
    unfold strFields
    rw [List.map_map, List.pairwise_map]
    exact sortByKey_sorted fs
  rw [PyValue.textOrdered, hsorted, Bool.true_and, PyValue.textOrderedFields_eq, List.all_eq_true]
  unfold strFields
  constructor
  · intro h f hf
    exact h _ (List.mem_map_of_mem hf)
  · intro h f hf
    obtain ⟨g, hg, rfl⟩ := List.mem_map.mp hf
    exact h g hg

theorem encodable_strFields (fs : List (PyStr × PyValue)) :
    (PyValue.dict (strFields fs)).encodable = true ↔ ∀ f ∈ fs, f.2.encodable = true := by
  rw [PyValue.encodable, sortable_strFields, Bool.true_and, PyValue.encodableFields_eq,
    List.all_eq_true]
  unfold strFields
  constructor
  · intro h f hf
    exact (Bool.and_eq_true_iff.mp (h _ (List.mem_map_of_mem hf))).2
  · intro h f hf
    obtain ⟨g, hg, rfl⟩ := List.mem_map.mp hf
    exact Bool.and_eq_true_iff.mpr ⟨rfl, h g hg⟩

theorem nodupKeys_strFields {fs : List (PyStr × PyValue)}
    (h : (PyValue.dict (strFields fs)).nodupKeys = true) : ∀ f ∈ fs, f.2.nodupKeys = true := by
  rw [PyValue.nodupKeys, Bool.and_eq_true, PyValue.nodupKeysFields_eq, List.all_eq_true] at h
  intro f hf
  exact h.2 _ (List.mem_map_of_mem (f := fun f : PyStr × PyValue => ((.str f.1 : PyKey), f.2)) hf)

section Basis

variable {row : RowHeader} {data : List (PyStr × PyValue)}

/-- What holds of the scalars of a basis and of its data holds of the whole. -/
theorem entries_all {P : PyValue → Prop} (hstr : ∀ s, P (.str s)) (hint : P (.int row.sequence))
    (hnone : P .none) :
    (∀ f ∈ row.entries data, P f.2) ↔ P (.dict (strFields data)) := by
  constructor
  · intro h
    exact h (py "data", .dict (strFields data)) (by simp [RowHeader.entries])
  · intro h f hf
    have hprevious : P (.ofNullable row.previousHash) := by
      cases row.previousHash with
      | none => exact hnone
      | some h => exact hstr h
    simp only [RowHeader.entries, List.mem_cons, List.not_mem_nil, or_false] at hf
    rcases hf with rfl | rfl | rfl | rfl | rfl | rfl | rfl | rfl
    · exact hstr _
    · exact hstr _
    · exact hstr _
    · exact hstr _
    · exact hint
    · exact hprevious
    · exact hstr _
    · exact h

theorem textOrdered_basis (rt : Runtime) :
    (row.basis data).textOrdered rt = true ↔ ∀ f ∈ data, f.2.textOrdered rt = true := by
  unfold RowHeader.basis
  rw [textOrdered_strFields, ← textOrdered_strFields rt data]
  exact entries_all (P := fun v => v.textOrdered rt = true) (fun _ => rfl) rfl rfl

theorem encodable_basis (h : (row.basis data).encodable = true) :
    ∀ f ∈ data, f.2.encodable = true := by
  unfold RowHeader.basis at h
  rw [encodable_strFields] at h
  rw [← encodable_strFields]
  exact h (py "data", .dict (strFields data)) (by simp [RowHeader.entries])

theorem nodupKeys_basis (h : (row.basis data).nodupKeys = true) :
    ∀ f ∈ data, f.2.nodupKeys = true := by
  apply nodupKeys_strFields
  exact nodupKeys_strFields h (py "data", .dict (strFields data)) (by simp [RowHeader.entries])

end Basis

/-! ## §4. What a row holds of a document. -/

/-- Keys that sort with a string sort without it. -/
theorem sortableKeys_of_append {keys : List PyKey} {s : PyStr}
    (h : sortableKeys (keys ++ [.str s]) = true) : ∀ k ∈ keys, k.isStr = true := by
  unfold sortableKeys at h
  rw [Bool.or_eq_true, Bool.or_eq_true, decide_eq_true_eq, List.length_append, List.all_append,
    List.all_append, Bool.and_eq_true, Bool.and_eq_true, List.all_eq_true] at h
  rcases h with (h | h) | h
  · have hnil : keys = [] := List.length_eq_zero_iff.mp (by
      simp only [List.length_cons, List.length_nil] at h
      omega)
    rw [hnil]
    intro k hk
    cases hk
  · exact h.1
  · have hstr := h.2
    cases hstr

/-- Fields under string keys, as pairs. -/
theorem exists_strFields {fs : List (PyKey × PyValue)} (h : ∀ k ∈ fs.map Prod.fst, k.isStr = true) :
    ∃ ps, fs = strFields ps := by
  induction fs with
  | nil => exact ⟨[], rfl⟩
  | cons f fs ih =>
    obtain ⟨ps, hps⟩ := ih (fun k hk => h k (List.mem_cons_of_mem _ hk))
    obtain ⟨k, v⟩ := f
    cases k with
    | str s => exact ⟨(s, v) :: ps, by rw [hps]; rfl⟩
    | _ =>
      have hstr := h _ List.mem_cons_self
      cases hstr

/-- The dimensions that are added to a memory's metadata. -/
def dimensionsValue (dimensions : List (PyStr × List PyStr)) : PyValue :=
  .dict (strFields (dimensions.map (fun p => (p.1, .list (p.2.map .str)))))

theorem stored_memory (fields : List (PyKey × PyValue)) (dimensions : List (PyStr × List PyStr)) :
    DocumentKind.memoryMetadata.stored fields dimensions
      = .dict (fields ++ [(.str (py "subject_dimensions"), dimensionsValue dimensions)]) := by
  unfold DocumentKind.stored dimensionsValue strFields
  rw [List.map_map]
  rfl

theorem dimensionsValue_ordered (rt : Runtime) (dimensions : List (PyStr × List PyStr)) :
    (dimensionsValue dimensions).textOrdered rt = true := by
  unfold dimensionsValue
  rw [textOrdered_strFields]
  intro f hf
  obtain ⟨p, _, rfl⟩ := List.mem_map.mp hf
  rw [PyValue.textOrdered, PyValue.textOrderedItems_eq, List.all_map]
  exact List.all_eq_true.mpr (fun _ _ => rfl)

/-- **What a row holds is in order where the document is**, and is well formed where
the document is. -/
theorem stored_spec (rt : Runtime) (kind : DocumentKind) {fields : List (PyKey × PyValue)}
    {dimensions : List (PyStr × List PyStr)}
    (he : (kind.stored fields dimensions).encodable = true)
    (hn : (kind.stored fields dimensions).nodupKeys = true) :
    (PyValue.dict fields).encodable = true ∧ (PyValue.dict fields).nodupKeys = true ∧
      ((kind.stored fields dimensions).textOrdered rt = true ↔
        (PyValue.dict fields).textOrdered rt = true) := by
  cases kind with
  | memoryMetadata =>
    rw [stored_memory] at he hn ⊢
    have hkeys : sortableKeys (fields.map Prod.fst ++ [.str (py "subject_dimensions")]) = true := by
      rw [PyValue.encodable, Bool.and_eq_true, List.map_append] at he
      exact he.1
    obtain ⟨ps, rfl⟩ := exists_strFields (sortableKeys_of_append hkeys)
    have hstored : strFields ps ++ [(.str (py "subject_dimensions"), dimensionsValue dimensions)]
        = strFields (ps ++ [(py "subject_dimensions", dimensionsValue dimensions)]) := by
      unfold strFields
      rw [List.map_append]
      rfl
    rw [hstored] at he hn ⊢
    rw [encodable_strFields] at he ⊢
    rw [textOrdered_strFields, textOrdered_strFields]
    refine ⟨fun f hf => he f (List.mem_append_left _ hf), ?_, ?_⟩
    · rw [PyValue.nodupKeys, Bool.and_eq_true, decide_eq_true_eq] at hn ⊢
      have hsub : (strFields ps).Sublist
          (strFields (ps ++ [(py "subject_dimensions", dimensionsValue dimensions)])) :=
        (List.sublist_append_left _ _).map _
      refine ⟨hn.1.sublist (hsub.map _), ?_⟩
      rw [PyValue.nodupKeysFields_eq, List.all_eq_true] at hn ⊢
      exact fun f hf => hn.2 f (hsub.subset hf)
    · constructor
      · exact fun h f hf => h f (List.mem_append_left _ hf)
      · intro h f hf
        rcases List.mem_append.mp hf with hf | hf
        · exact h f hf
        · rw [List.mem_singleton.mp hf]
          exact dimensionsValue_ordered rt dimensions
  | receiptPayload => exact ⟨he, hn, Iff.rfl⟩
  | traceAttributes => exact ⟨he, hn, Iff.rfl⟩
  | operationalBody => exact ⟨he, hn, Iff.rfl⟩
  | operationalMetadata => exact ⟨he, hn, Iff.rfl⟩

/-! ## §5. What a JSON column gives back can be written again. -/

mutual
theorem encodable_roundTrip (rt : Runtime) (v : PyValue) (h : v.encodable = true) :
    (v.roundTrip rt).encodable = true := by
  cases v with
  | list xs =>
    rw [PyValue.encodable, PyValue.encodableItems_eq, List.all_eq_true] at h
    rw [PyValue.roundTrip, PyValue.roundTripItems_eq, Json.encodable, encodableItems_eq,
      List.all_map, List.all_eq_true]
    exact encodable_roundTrip_items rt xs h
  | tuple xs =>
    rw [PyValue.encodable, PyValue.encodableItems_eq, List.all_eq_true] at h
    rw [PyValue.roundTrip, PyValue.roundTripItems_eq, Json.encodable, encodableItems_eq,
      List.all_map, List.all_eq_true]
    exact encodable_roundTrip_items rt xs h
  | dict fs =>
    rw [PyValue.encodable, PyValue.encodableFields_eq, Bool.and_eq_true, List.all_eq_true] at h
    rw [PyValue.roundTrip, PyValue.roundTripFields_eq, Json.encodable, encodableFields_eq,
      List.all_map, List.all_eq_true]
    exact encodable_roundTrip_fields rt fs (fun f hf => (Bool.and_eq_true_iff.mp (h.2 f hf)).2)
  | none => rfl
  | bool b => rfl
  | str s => rfl
  | int n => exact h
  | float f => exact h

theorem encodable_roundTrip_items (rt : Runtime) (xs : List PyValue)
    (h : ∀ x ∈ xs, x.encodable = true) : ∀ x ∈ xs, (x.roundTrip rt).encodable = true := by
  cases xs with
  | nil =>
    intro x hx
    cases hx
  | cons y ys =>
    intro x hx
    rcases List.mem_cons.mp hx with hxy | hx
    · rw [hxy]
      exact encodable_roundTrip rt y (h y List.mem_cons_self)
    · exact encodable_roundTrip_items rt ys (fun z hz => h z (List.mem_cons_of_mem _ hz)) x hx

theorem encodable_roundTrip_fields (rt : Runtime) (fs : List (PyKey × PyValue))
    (h : ∀ f ∈ fs, f.2.encodable = true) : ∀ f ∈ fs, (f.2.roundTrip rt).encodable = true := by
  cases fs with
  | nil =>
    intro f hf
    cases hf
  | cons g gs =>
    intro f hf
    rcases List.mem_cons.mp hf with hfg | hf
    · rw [hfg]
      exact encodable_roundTrip rt g.2 (h g List.mem_cons_self)
    · exact encodable_roundTrip_fields rt gs (fun z hz => h z (List.mem_cons_of_mem _ hz)) f hf
end

/-- The canonical text of a value and of what storage makes of it. -/
def SameText (rt : Runtime) (v : PyValue) : Prop :=
  v.canonicalJson rt = (canonicalJson rt (v.roundTrip rt)).toOption

theorem sameText_iff {rt : Interpreter} (hrepr : ReprRoundTrip rt) {v : PyValue}
    (hn : v.nodupKeys = true) (he : v.encodable = true) :
    SameText rt.toRuntime v ↔ v.textOrdered rt.toRuntime = true := by
  unfold SameText PyValue.canonicalJson canonicalJson
  rw [if_pos he, if_pos (encodable_roundTrip rt.toRuntime v he),
    ← PyValue.render_roundTrip hrepr hn he]
  simp [Except.toOption]

/-! ## §6. Hashes. -/

/-- **Documents hash alike after storage exactly where their dicts sort as the texts
of their keys do**: the canonical text of an appended document is that of its JSON
round trip if and only if it is so ordered, and then, the other documents of the row
being so ordered as well, the recomputed record hash is the one of the append. -/
theorem document_hash_stable (rt : Interpreter) (hrepr : ReprRoundTrip rt) {kind : DocumentKind}
    {fields : List (PyKey × PyValue)} {dimensions : List (PyStr × List PyStr)} {row : RowHeader}
    {data : List (PyStr × PyValue)} {h : PyStr}
    (happended : Appended rt.toRuntime kind fields dimensions row data h) :
    (SameText rt.toRuntime (.dict fields) ↔
      (PyValue.dict fields).textOrdered rt.toRuntime = true) ∧
    (SameText rt.toRuntime (row.basis data) ↔
      ∀ f ∈ data, f.2.textOrdered rt.toRuntime = true) ∧
    ((∀ f ∈ data, f.2.textOrdered rt.toRuntime = true) →
      recomputedHash rt.toRuntime row data = .ok h) := by
  obtain ⟨_, hheld, hdicts, hhashed⟩ := happended
  have he : (row.basis data).encodable = true := by
    by_contra hne
    unfold PyValue.sha256Json PyValue.canonicalJson at hhashed
    rw [if_neg hne] at hhashed
    cases hhashed
  obtain ⟨hev, hnv, _⟩ := stored_spec rt.toRuntime kind (encodable_basis he _ hheld)
    (nodupKeys_basis hdicts _ hheld)
  have hbasis := sameText_iff hrepr hdicts he
  rw [textOrdered_basis] at hbasis
  refine ⟨sameText_iff hrepr hnv hev, hbasis, ?_⟩
  intro hordered
  have hsame := hbasis.mpr hordered
  unfold SameText at hsame
  unfold PyValue.sha256Json at hhashed
  unfold recomputedHash sha256Json
  rw [hsame] at hhashed
  cases htext : canonicalJson rt.toRuntime ((row.basis data).roundTrip rt.toRuntime) with
  | error e =>
    rw [htext] at hhashed
    cases hhashed
  | ok text =>
    rw [htext] at hhashed
    show sha256Text rt.toRuntime text = .ok h
    cases hdigest : sha256Text rt.toRuntime text with
    | error e =>
      have hnone : ((sha256Text rt.toRuntime text).toOption) = some h := hhashed
      rw [hdigest] at hnone
      cases hnone
    | ok digest =>
      have hsome : ((sha256Text rt.toRuntime text).toOption) = some h := hhashed
      rw [hdigest] at hsome
      cases hsome
      rfl

/-! Two payloads: `{1: "a", 2: (True,)}`, and `{2: "a", 10: "b"}`. -/

def numberedPayload : List (PyKey × PyValue) :=
  [(.int 2, .tuple [.bool true]), (.int 1, .str (py "a"))]

/-- In the order of the numbers 2 is before 10, in that of the texts behind it. -/
def unorderedPayload : List (PyKey × PyValue) := [(.int 2, .str (py "a")), (.int 10, .str (py "b"))]

def sampleHeader : RowHeader :=
  ⟨receiptSchema, ⟨⟨py "11111111-1111-4111-8111-111111111111"⟩,
    ⟨py "22222222-2222-4222-8222-222222222222"⟩⟩, .receipts, 1, none, py "2026-01-01T00:00:00Z"⟩

/-- The `data` of a receipt with this payload. -/
def payloadRow (payload : List (PyKey × PyValue)) : List (PyStr × PyValue) := [
  (py "kind", .str (py "analysis.completed")),
  (py "subject_type", .str (py "workspace")),
  (py "subject_id", .str (py "subject")),
  (py "truth_label", .str (py "SAMPLE")),
  (py "payload", .dict payload),
  (py "payload_sha256", .ofNullable ((PyValue.dict payload).sha256Json integerRuntime.toRuntime)),
  (py "evidence_refs", .list [])]

/-- A receipt with a numbered payload is appended. -/
theorem payloadRow_appended {payload : List (PyKey × PyValue)}
    (hadmits : DocumentKind.receiptPayload.admits integerRuntime.toRuntime payload = true)
    (hdicts : (sampleHeader.basis (payloadRow payload)).nodupKeys = true)
    (hhash : ((sampleHeader.basis (payloadRow payload)).sha256Json
      integerRuntime.toRuntime).isSome = true) :
    ∃ h, Appended integerRuntime.toRuntime .receiptPayload payload [] sampleHeader
      (payloadRow payload) h := by
  obtain ⟨h, hh⟩ := Option.isSome_iff_exists.mp hhash
  exact ⟨h, hadmits, by simp [payloadRow, DocumentKind.field, DocumentKind.stored], hdicts, hh⟩

/-- **A payload that hashes differently after storage.** -/
theorem document_hash_unstable : ∃ h,
    Appended integerRuntime.toRuntime .receiptPayload unorderedPayload [] sampleHeader
      (payloadRow unorderedPayload) h ∧
    ¬ SameText integerRuntime.toRuntime (.dict unorderedPayload) ∧
    recomputedHash integerRuntime.toRuntime sampleHeader (payloadRow unorderedPayload)
      ≠ .ok h := by
  have hdiffers : (recomputedHash integerRuntime.toRuntime sampleHeader
      (payloadRow unorderedPayload)).toOption ≠
      (sampleHeader.basis (payloadRow unorderedPayload)).sha256Json
        integerRuntime.toRuntime := by decide +kernel
  obtain ⟨h, happended⟩ := @payloadRow_appended unorderedPayload
    (by decide +kernel) (by decide +kernel) (by decide +kernel)
  refine ⟨h, happended, ?_, ?_⟩
  · unfold SameText
    decide +kernel
  · intro hsame
    apply hdiffers
    rw [hsame, happended.hashed]
    rfl

/-- A payload with numbers as keys whose hash is stable. -/
theorem document_hash_stable_sample :
    SameText integerRuntime.toRuntime (.dict numberedPayload) := by
  obtain ⟨_, happended⟩ := @payloadRow_appended numberedPayload
    (by decide +kernel) (by decide +kernel) (by decide +kernel)
  exact (document_hash_stable integerRuntime integerRuntime_repr happended).1.mpr
    (by decide +kernel)

end Lyte
