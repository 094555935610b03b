import Lyte.Intelligence.LivingAnatomy
import Lyte.Persistence.BundleResolve

/-
  Lyte.Persistence.AnatomyBinding — anatomies are stored as they were built.

  The builder, the argument checks of a bundle and the validation of a stored one
  each encode the order, the chaining and the digest of the nine stages.  They
  agree: whatever the builder admits passes the checks, and the digest that is
  recomputed from stored attributes is the one that was computed from the stages.
  And they bind: under a digest that is injective, the outputs of the stages tell
  their states and results apart.

      anatomy_agrees_and_binds   both, for all anatomies.
-/

namespace Lyte

open Transact

/-! ## §1. The argument checks. -/

section Checks

variable {rt : Runtime} {upper : PyStr → PyStr} {truthLabel : TruthLabel}
variable {sourceRevision : Option PyStr}

theorem StagesOf.specs {stages : List (AnalysisStageSpec × List PyStr)} {input : PyStr}
    {results : List StageResult} {built : List AnalysisStage}
    (h : StagesOf rt upper truthLabel sourceRevision stages input results built) :
    built.map AnalysisStage.spec = stages.map Prod.fst := by
  induction stages generalizing input results built with
  | nil =>
    rw [show built = [] from h]
    rfl
  | cons stage stages ih =>
    cases results with
    | nil => exact False.elim h
    | cons r results =>
      cases built with
      | nil => exact False.elim h
      | cons s built => rw [List.map_cons, List.map_cons, h.1.spec, ih h.2]

/-- What holds of the input and of every digest holds of all digests of a chain. -/
theorem StagesOf.digestsSatisfy {p : PyStr → Prop}
    (hdigest : ∀ {v : Json} {digest : PyStr}, sha256Json rt v = .ok digest → p digest)
    {stages : List (AnalysisStageSpec × List PyStr)} {input : PyStr} (hinput : p input)
    {results : List StageResult} {built : List AnalysisStage}
    (h : StagesOf rt upper truthLabel sourceRevision stages input results built) :
    ∀ s ∈ built, p s.inputSha256 ∧ p s.basisSha256 ∧ p s.outputSha256 := by
  induction stages generalizing input results built with
  | nil =>
    rw [show built = [] from h]
    intro s hs
    cases hs
  | cons stage stages ih =>
    cases results with
    | nil => exact False.elim h
    | cons r results =>
      cases built with
      | nil => exact False.elim h
      | cons s built =>
        intro t ht
        rcases List.mem_cons.mp ht with rfl | ht
        · rw [h.1.incoming]
          exact ⟨hinput, hdigest h.1.basis, hdigest h.1.output⟩
        · exact ih (hdigest h.1.output) h.2 t ht

/-- What every result of `sha256` is, every digest of a value is. -/
theorem digest_satisfies {p : PyStr → Prop} (hp : ∀ bytes, p (rt.sha256 bytes)) {v : Json}
    {digest : PyStr} (h : sha256Json rt v = .ok digest) : p digest := by
  unfold sha256Json at h
  obtain ⟨text, _, h⟩ := ok_of_bind h
  unfold sha256Text at h
  split at h
  · cases h
    exact hp _
  · cases h

variable {scope : Scope} {traceId : Uuid} {clock : Nat → Instant} {uuid : Nat → Uuid}

theorem tracesOf_length (stages : List AnalysisStage) (i : Nat) (parent : Option Uuid) :
    (tracesOf scope traceId clock uuid i parent stages).length = stages.length := by
  induction stages generalizing i parent with
  | nil => rfl
  | cons s stages ih => exact congrArg Nat.succ (ih (i + 1) _)

/-- A trace of the list is the trace of a stage. -/
theorem mem_tracesOf {stages : List AnalysisStage} {i : Nat} {parent : Option Uuid}
    {t : AnatomyTrace} (h : t ∈ tracesOf scope traceId clock uuid i parent stages) :
    ∃ s ∈ stages, ∃ spanId parentSpanId started completed,
      t = traceOf s scope traceId spanId parentSpanId started completed := by
  induction stages generalizing i parent with
  | nil => cases h
  | cons s stages ih =>
    rcases List.mem_cons.mp h with rfl | h
    · exact ⟨s, List.mem_cons_self, _, _, _, _, rfl⟩
    · obtain ⟨s', hs', hex⟩ := ih h
      exact ⟨s', List.mem_cons_of_mem _ hs', hex⟩

/-- What a key of the attributes holds. -/
theorem attributes_get (s : AnalysisStage) :
    Json.get s.attributeFields (py "sequence") = .int s.spec.sequence ∧
    Json.get s.attributeFields (py "stage") = .str s.spec.stage ∧
    Json.get s.attributeFields (py "stage_state") = .str s.state ∧
    Json.get s.attributeFields (py "basis_sha256") = .str s.basisSha256 ∧
    Json.get s.attributeFields (py "human_approval_required") = .bool true ∧
    Json.get s.attributeFields (py "can_authorize") = .bool false ∧
    Json.get s.attributeFields (py "can_execute") = .bool false ∧
    Json.get s.attributeFields (py "effectors_enabled") = .bool false := by
  simp [Json.get, Json.lookup, AnalysisStage.attributeFields, List.lookup_cons, py_beq]

theorem lookup_sequence (s : AnalysisStage) :
    Json.lookup s.attributeFields (py "sequence") = some (.int s.spec.sequence) := by
  simp [Json.lookup, AnalysisStage.attributeFields, List.lookup_cons, py_beq]

theorem mapM_sequences (stages : List AnalysisStage) (i : Nat) (parent : Option Uuid) :
    (tracesOf scope traceId clock uuid i parent stages).mapM (fun t =>
      pyInt rt ((Json.lookup t.attributes.fields (py "sequence")).getD (.int (-1))))
      = .ok (stages.map (fun s => s.spec.sequence)) := by
  induction stages generalizing i parent with
  | nil => rfl
  | cons s stages ih =>
    have hfirst : pyInt rt ((Json.lookup (traceOf s scope traceId (uuid i) parent (clock (2 * i))
        (clock (2 * i + 1))).attributes.fields (py "sequence")).getD (.int (-1)))
        = .ok s.spec.sequence := by
      show pyInt rt ((Json.lookup s.attributeFields (py "sequence")).getD (.int (-1))) = _
      rw [lookup_sequence]
      rfl
    unfold tracesOf
    rw [List.mapM_cons, hfirst, ih]
    rfl

theorem tracesOf_linked {stages : List (AnalysisStageSpec × List PyStr)} {input : PyStr}
    {results : List StageResult} {built : List AnalysisStage}
    (h : StagesOf rt upper truthLabel sourceRevision stages input results built) (i : Nat)
    (parent : Option Uuid) :
    tracesLinked (tracesOf scope traceId clock uuid i parent built) = true := by
  induction stages generalizing input results built i parent with
  | nil =>
    rw [show built = [] from h]
    rfl
  | cons stage stages ih =>
    cases results with
    | nil => exact False.elim h
    | cons r results =>
      cases built with
      | nil => exact False.elim h
      | cons s built =>
        have hrest := ih h.2 (i + 1) (some (uuid i))
        cases built with
        | nil => rfl
        | cons t built =>
          have hlink : t.inputSha256 = s.outputSha256 := by
            cases stages with
            | nil => cases h.2
            | cons stage' stages =>
              cases results with
              | nil => exact False.elim h.2
              | cons r' results => exact h.2.1.incoming
          show (some (uuid i) == some (uuid i) && some t.inputSha256 == some s.outputSha256 &&
            tracesLinked (tracesOf scope traceId clock uuid (i + 1) (some (uuid i)) (t :: built)))
            = true
          rw [hrest, hlink, beq_self_eq_true, beq_self_eq_true]
          rfl

theorem sovereign_traceOf (s : AnalysisStage) (spanId : Uuid) (parent : Option Uuid)
    (started completed : Instant) :
    sovereign (traceOf s scope traceId spanId parent started completed) = true := by
  obtain ⟨_, _, _, _, hhuman, hauthorize, hexecute, heffectors⟩ := attributes_get s
  unfold sovereign
  show (true && true && (Json.get s.attributeFields _).isTrue
    && (Json.get s.attributeFields _).isFalse
    && (Json.get s.attributeFields _).isFalse && (Json.get s.attributeFields _).isFalse) = true
  rw [hhuman, hauthorize, hexecute, heffectors]
  rfl

/-- **Every trace check of a bundle passes.** -/
theorem checkBundleArguments_ok {input : PyStr} {results : List StageResult}
    {built : List AnalysisStage}
    (h : StagesOf rt upper truthLabel sourceRevision (analysisStages.zip stageStates) input results
      built)
    {receiptDraft : ReceiptDraft} {memoryDraft : MemoryDraft} {requestDigest : PyStr}
    (hrequest : isSha256Hex requestDigest = true)
    (hreceipt : receiptDraft.payload.get (py "trace_id") = .str traceId.text)
    (hmemory : memoryDraft.metadata.get (py "trace_id") = .str traceId.text) :
    checkBundleArguments rt scope receiptDraft memoryDraft
      (tracesOf scope traceId clock uuid 0 none built) requestDigest = .ok () := by
  have hspecs := h.specs
  have hlength : (tracesOf scope traceId clock uuid 0 none built).length = 9 := by
    have hcount := congrArg List.length hspecs
    rw [List.length_map, List.length_map] at hcount
    rw [tracesOf_length, hcount]
    rfl
  have hsequences : (tracesOf scope traceId clock uuid 0 none built).mapM (fun t =>
      pyInt rt ((Json.lookup t.attributes.fields (py "sequence")).getD (.int (-1))))
      = .ok (built.map (fun s => s.spec.sequence)) := mapM_sequences built 0 none
  have hnine : built.map (fun s => s.spec.sequence) = [1, 2, 3, 4, 5, 6, 7, 8, 9] := by
    have hmap := congrArg (List.map AnalysisStageSpec.sequence) hspecs
    rw [List.map_map] at hmap
    exact hmap
  have hlinked : tracesLinked (tracesOf scope traceId clock uuid 0 none built) = true :=
    tracesOf_linked h 0 none
  have hshared : ∀ t ∈ tracesOf scope traceId clock uuid 0 none built,
      t.traceId = traceId ∧ t.scope = scope ∧ sovereign t = true := by
    intro t ht
    obtain ⟨s, _, spanId, parent, started, completed, rfl⟩ := mem_tracesOf ht
    exact ⟨rfl, rfl, sovereign_traceOf s spanId parent started completed⟩
  have hfirst : ∀ t, (tracesOf scope traceId clock uuid 0 none built).head? = some t →
      t.parentSpanId = none := by
    intro t ht
    cases built with
    | nil => cases ht
    | cons s built =>
      cases ht
      rfl
  rw [hnine] at hsequences
  generalize tracesOf scope traceId clock uuid 0 none built = traces at *
  cases traces with
  | nil => cases hlength
  | cons first rest =>
    have hid := (hshared first List.mem_cons_self).1
    have hids : (first :: rest).any (fun t => decide (¬ t.traceId = traceId)) = false := by
      rw [List.any_eq_false]
      intro t ht
      rw [(hshared t ht).1]
      simp
    have hscopes : (first :: rest).any (fun t => decide (¬ t.scope = scope)) = false := by
      rw [List.any_eq_false]
      intro t ht
      rw [(hshared t ht).2.1]
      simp
    have hall : (first :: rest).all sovereign = true :=
      List.all_eq_true.mpr (fun t ht => (hshared t ht).2.2)
    have hself : (Json.str traceId.text).pyEq (.str traceId.text) = true := by
      simp [Json.pyEq]
    have hparent := hfirst first rfl
    unfold checkBundleArguments
    simp only [hrequest, hlength, hids, hscopes, hsequences, hid, hreceipt, hmemory, hself,
      hparent, hlinked, hall, bind, Except.bind, Bool.not_true, Bool.false_eq_true, if_false,
      ne_eq, not_true_eq_false, Bool.or_self, Option.isSome_none]
    rfl

end Checks

/-! ## §2. The stored digest. -/

theorem stored_anatomy (d : Dialect) (r : AnatomyTraceRecord) :
    Row.stored d (.anatomy r) = .anatomy (r.stored d) := rfl

section Stored

variable {rt : Runtime} {scope : Scope} {traceId : Uuid} {clock : Nat → Instant}
variable {uuid : Nat → Uuid}

/-- The row of a trace says of its stage what the builder digested. -/
theorem stageBasis_of_row {id : PyStr} {s : AnalysisStage} {spanId : Uuid} {parent : Option Uuid}
    {started completed : Instant} {n : Int} {p : Option PyStr} {at_ : Stamp}
    {r : AnatomyTraceRecord}
    (h : anatomyRow rt id scope (traceOf s scope traceId spanId parent started completed) n p at_
      = .ok r) (d : Dialect) : stageBasis (r.stored d) = .dict s.digestFields := by
  unfold anatomyRow at h
  obtain ⟨data, _, h⟩ := ok_of_bind h
  obtain ⟨m, _, h⟩ := ok_of_bind h
  cases h
  obtain ⟨hsequence, hstage, hstate, hbasis, _⟩ := attributes_get s
  unfold stageBasis AnalysisStage.digestFields
  simp only [AnatomyTraceRecord.attribute, AnatomyTraceRecord.stored, traceOf,
    AnalysisStage.attributes, JsonDict.json, hsequence, hstage, hstate, hbasis, Json.ofOption]

/-- **The digest that is recomputed is the one that was computed.** -/
theorem stageBasis_built {sup : Supply} {at_ : Stamp} (d : Dialect) {built : List AnalysisStage}
    {i : Nat} {parent : Option Uuid} {k : Nat} {n : Int} {p : Option PyStr}
    {rows : List AnatomyTraceRecord}
    (h : traceRows rt sup scope at_ (tracesOf scope traceId clock uuid i parent built) k n p
      = .ok rows) :
    (rows.map (AnatomyTraceRecord.stored d)).map stageBasis
      = built.map (fun s => .dict s.digestFields) := by
  induction built generalizing i parent k n p rows with
  | nil =>
    cases h
    rfl
  | cons s built ih =>
    unfold tracesOf traceRows at h
    obtain ⟨row, hrow, h⟩ := ok_of_bind h
    obtain ⟨rest, hrest, h⟩ := ok_of_bind h
    cases h
    rw [List.map_cons, List.map_cons, List.map_cons, stageBasis_of_row hrow d, ih hrest]

end Stored

/-! ## §3. Stages are bound. -/

/-- A string-keyed JSON value as Python has it: no dict has a key twice, and code points
go up to U+10FFFF. -/
def IsValue (v : Json) : Prop := v.nodupKeys = true ∧ v.allStrings inRange = true

/-- **The digest is injective on string-keyed JSON**, and is a text. -/
structure DigestInjective (rt : Runtime) : Prop where
  text : ∀ bytes, inRange (rt.sha256 bytes) = true
  injective : ∀ (a b : Json) (digest : PyStr), IsValue a → IsValue b →
    sha256Json rt a = .ok digest → sha256Json rt b = .ok digest → a.canonical = b.canonical

/-- The arguments of a build are Python strings and dicts. -/
structure Texts (input : PyStr) (sourceRevision : Option PyStr) (results : List StageResult) :
    Prop where
  input : inRange input = true
  revision : ∀ t, sourceRevision = some t → inRange t = true
  results : ∀ r ∈ results, r.result.json.allStrings inRange = true

/-- Two stages have the same normalised state and the same result. -/
def SameStage (upper : PyStr → PyStr) (r r' : StageResult) : Prop :=
  upper (strip r.state) = upper (strip r'.state) ∧
    r.result.json.canonical = r'.result.json.canonical

/-- A stage whose constants are texts. -/
def TextStage (stage : AnalysisStageSpec × List PyStr) : Prop :=
  inRange stage.1.stage = true ∧ inRange stage.1.operation = true ∧
    stage.2.all inRange = true

theorem textStages : ∀ stage ∈ analysisStages.zip stageStates, TextStage stage := by
  unfold TextStage
  decide

section Binding

variable {rt : Runtime} {upper : PyStr → PyStr} {truthLabel : TruthLabel}
variable {sourceRevision : Option PyStr}

theorem digest_text (hinj : DigestInjective rt) {v : Json} {digest : PyStr}
    (h : sha256Json rt v = .ok digest) : inRange digest = true :=
  digest_satisfies (p := fun d => inRange d = true) hinj.text h

/-- What one stage does, on texts. -/
structure StageStep (rt : Runtime) (upper : PyStr → PyStr) (truthLabel : TruthLabel)
    (sourceRevision : Option PyStr) (stage : AnalysisStageSpec × List PyStr) (input : PyStr)
    (r : StageResult) (output : PyStr) : Prop where
  stageText : TextStage stage
  inputText : inRange input = true
  resultText : r.result.json.allStrings inRange = true
  built : ∃ s, StageOf rt upper truthLabel sourceRevision stage input r s ∧
    s.outputSha256 = output

/-- Equal items, equal outputs. -/
theorem stageStep_eq {stage : AnalysisStageSpec × List PyStr} {input : PyStr}
    {r r' : StageResult} {output output' : PyStr}
    (h : StageStep rt upper truthLabel sourceRevision stage input r output)
    (h' : StageStep rt upper truthLabel sourceRevision stage input r' output')
    (hsame : SameStage upper r r') : output = output' := by
  obtain ⟨s, hs, hout⟩ := h.built
  obtain ⟨s', hs', hout'⟩ := h'.built
  have hbasis : s.basisSha256 = s'.basisSha256 := by
    have hboth := hs.basis
    rw [hs'.basis] at hboth
    exact (Except.ok.inj hboth).symm
  have hstate : s.state = s'.state := by rw [hs.state, hs'.state, hsame.1]
  have hcanonical : (Json.dict (outputFields stage.1 s.state s.basisSha256 r.result)).canonical
      = (Json.dict (outputFields stage.1 s'.state s'.basisSha256 r'.result)).canonical := by
    unfold outputFields Json.canonical
    simp only [Json.canonicalFields, hbasis, hstate, hsame.2]
  have hdigest := hs.output
  rw [← sha256Json_canonical, hcanonical, sha256Json_canonical, hs'.output] at hdigest
  rw [← hout, ← hout']
  exact (Except.ok.inj hdigest).symm

theorem outputFields_value {stage : AnalysisStageSpec × List PyStr} {state basis : PyStr}
    {result : JsonDict} (hstage : TextStage stage) (hstate : inRange state = true)
    (hbasis : inRange basis = true) (hresult : result.json.allStrings inRange = true) :
    IsValue (.dict (outputFields stage.1 state basis result)) := by
  constructor
  · simp only [outputFields, Json.nodupKeys, Json.nodupKeysFields, JsonDict.json_nodupKeys,
      List.map_cons, List.map_nil]
    decide
  · simp only [outputFields, Json.allStrings, Json.allStringsFields, hstate, hbasis, hresult,
      hstage.1]
    decide

theorem basisFields_value {stage : AnalysisStageSpec × List PyStr} {input : PyStr}
    (hstage : TextStage stage) (hinput : inRange input = true)
    (hrevision : ∀ t, sourceRevision = some t → inRange t = true) :
    IsValue (.dict (basisFields stage.1 truthLabel sourceRevision input)) := by
  have hoption : (Json.ofOption sourceRevision).allStrings inRange = true := by
    cases sourceRevision with
    | none => rfl
    | some t => exact hrevision t rfl
  have hlabel : inRange truthLabel.value = true := by
    cases truthLabel with
    | measured | reported | modeled | sample | roadmap | unavailable => decide
  constructor
  · simp only [basisFields, Json.nodupKeys, Json.nodupKeysFields, ofOption_nodupKeys,
      List.map_cons, List.map_nil]
    decide
  · simp only [basisFields, Json.allStrings, Json.allStringsFields, hinput, hstage.1, hstage.2.1,
      hoption, hlabel]
    decide

/-- **Equal outputs, equal inputs and items.** -/
theorem stageStep_inj (hinj : DigestInjective rt)
    (hrevision : ∀ t, sourceRevision = some t → inRange t = true)
    {stage : AnalysisStageSpec × List PyStr} {input input' : PyStr} {r r' : StageResult}
    {output : PyStr}
    (h : StageStep rt upper truthLabel sourceRevision stage input r output)
    (h' : StageStep rt upper truthLabel sourceRevision stage input' r' output) :
    input = input' ∧ SameStage upper r r' := by
  obtain ⟨s, hs, hout⟩ := h.built
  obtain ⟨s', hs', hout'⟩ := h'.built
  have hallowed : ∀ t ∈ stage.2, inRange t = true := List.all_eq_true.mp h.stageText.2.2
  have hvalue : IsValue (.dict (outputFields stage.1 s.state s.basisSha256 r.result)) :=
    outputFields_value h.stageText (hallowed _ hs.allowed) (digest_text hinj hs.basis)
      h.resultText
  have hvalue' : IsValue (.dict (outputFields stage.1 s'.state s'.basisSha256 r'.result)) :=
    outputFields_value h.stageText (hallowed _ hs'.allowed) (digest_text hinj hs'.basis)
      h'.resultText
  have houtput := hs.output
  have houtput' := hs'.output
  rw [hout] at houtput
  rw [hout'] at houtput'
  have hnames : ∀ (state basis : PyStr) (result : JsonDict),
      ((outputFields stage.1 state basis result).map Prod.fst).Nodup := by
    intro state basis result
    simp only [outputFields, List.map_cons, List.map_nil]
    decide
  have hcanonical := hinj.injective _ _ _ hvalue hvalue' houtput houtput'
  have hsame : (outputFields stage.1 s.state s.basisSha256 r.result).map Prod.fst
      = (outputFields stage.1 s'.state s'.basisSha256 r'.result).map Prod.fst := rfl
  have hfields := fields_of_canonical (hnames _ _ _) hsame hcanonical
  simp only [outputFields, List.map_cons, List.map_nil, List.cons.injEq, Prod.mk.injEq,
    Json.canonical, Json.str.injEq, true_and, and_true] at hfields
  obtain ⟨hstate, hbasis, hresult⟩ := hfields
  have hstored := hs.basis
  have hstored' := hs'.basis
  rw [← hbasis] at hstored'
  have hnames' : ∀ input : PyStr,
      ((basisFields stage.1 truthLabel sourceRevision input).map Prod.fst).Nodup := by
    intro input
    simp only [basisFields, List.map_cons, List.map_nil]
    decide
  have hcanonical' := hinj.injective _ _ _ (basisFields_value h.stageText h.inputText hrevision)
    (basisFields_value h.stageText h'.inputText hrevision) hstored hstored'
  have hsame' : (basisFields stage.1 truthLabel sourceRevision input).map Prod.fst
      = (basisFields stage.1 truthLabel sourceRevision input').map Prod.fst := rfl
  have hbasisFields := fields_of_canonical (hnames' _) hsame' hcanonical'
  simp only [basisFields, List.map_cons, List.map_nil, List.cons.injEq, Prod.mk.injEq,
    Json.canonical, Json.str.injEq, true_and, and_true] at hbasisFields
  rw [hs.state, hs'.state] at hstate
  exact ⟨hbasisFields, hstate, hresult⟩

/-- There is a result for each stage. -/
theorem results_length {input : PyStr} {results : List StageResult} {traceId : Uuid}
    {anatomy : AnalysisAnatomy}
    (h : buildAnalysisAnatomy rt upper input truthLabel sourceRevision results traceId
      = .ok anatomy) : results.length = (analysisStages.zip stageStates).length := by
  unfold buildAnalysisAnatomy at h
  split at h
  · cases h
  · next hlength =>
    rw [not_not] at hlength
    rw [hlength]
    rfl

/-- The outputs of an anatomy are the outputs of a chain. -/
theorem StagesOf.outputs (hinj : DigestInjective rt)
    {stages : List (AnalysisStageSpec × List PyStr)} (hstages : ∀ stage ∈ stages, TextStage stage)
    {input : PyStr} (hinput : inRange input = true) {results : List StageResult}
    (hlength : results.length = stages.length)
    (hresults : ∀ r ∈ results, r.result.json.allStrings inRange = true)
    {built : List AnalysisStage}
    (h : StagesOf rt upper truthLabel sourceRevision stages input results built) :
    StageChain.Outputs (StageStep rt upper truthLabel sourceRevision) stages input results
      (built.map AnalysisStage.outputSha256) := by
  induction stages generalizing input results built with
  | nil =>
    rw [show built = [] from h, List.eq_nil_of_length_eq_zero hlength]
    exact trivial
  | cons stage stages ih =>
    cases results with
    | nil => exact False.elim h
    | cons r results =>
      cases built with
      | nil => exact False.elim h
      | cons s built =>
        have hstep : StageStep rt upper truthLabel sourceRevision stage input r s.outputSha256 :=
          ⟨hstages stage List.mem_cons_self, hinput, hresults r List.mem_cons_self, s, h.1, rfl⟩
        exact ⟨hstep, ih (fun t ht => hstages t (List.mem_cons_of_mem _ ht))
          (digest_text hinj h.1.output) (Nat.succ.inj hlength)
          (fun t ht => hresults t (List.mem_cons_of_mem _ ht)) h.2⟩

/-- The digests of a chain are texts. -/
theorem StagesOf.texts (hinj : DigestInjective rt)
    {stages : List (AnalysisStageSpec × List PyStr)} {input : PyStr} (hinput : inRange input = true)
    {results : List StageResult} {built : List AnalysisStage}
    (h : StagesOf rt upper truthLabel sourceRevision stages input results built) :
    ∀ s ∈ built, inRange s.inputSha256 = true ∧ inRange s.basisSha256 = true ∧
      inRange s.outputSha256 = true := by
  apply h.digestsSatisfy (p := fun d => inRange d = true) (fun hv => digest_text hinj hv) hinput

/-- Each stage of an anatomy is one of the nine. -/
theorem StagesOf.mem {stages : List (AnalysisStageSpec × List PyStr)} {input : PyStr}
    {results : List StageResult} {built : List AnalysisStage}
    (h : StagesOf rt upper truthLabel sourceRevision stages input results built) :
    ∀ s ∈ built, ∃ stage ∈ stages, s.spec = stage.1 ∧ s.state ∈ stage.2 := by
  induction stages generalizing input results built with
  | nil =>
    rw [show built = [] from h]
    intro s hs
    cases hs
  | cons stage stages ih =>
    cases results with
    | nil => exact False.elim h
    | cons r results =>
      cases built with
      | nil => exact False.elim h
      | cons s built =>
        intro t ht
        rcases List.mem_cons.mp ht with rfl | ht
        · exact ⟨stage, List.mem_cons_self, h.1.spec, h.1.allowed⟩
        · obtain ⟨stage', hmem, hspec⟩ := ih h.2 t ht
          exact ⟨stage', List.mem_cons_of_mem _ hmem, hspec⟩

/-- What is digested of an anatomy is a value. -/
theorem digestFields_value (hinj : DigestInjective rt) {input : PyStr} {results : List StageResult}
    {built : List AnalysisStage} (hinput : inRange input = true)
    (h : StagesOf rt upper truthLabel sourceRevision (analysisStages.zip stageStates) input results
      built) : IsValue (.list (built.map (fun s => .dict s.digestFields))) := by
  have heach : ∀ s ∈ built, IsValue (.dict s.digestFields) := by
    intro s hs
    obtain ⟨stage, hmem, hspec, hstate⟩ := h.mem s hs
    have hstage := textStages stage hmem
    have hname : inRange s.spec.stage = true := by
      rw [hspec]
      exact hstage.1
    have htext : inRange s.state = true := List.all_eq_true.mp hstage.2.2 _ hstate
    obtain ⟨hin, hbasis, hout⟩ := h.texts hinj hinput s hs
    constructor
    · simp only [AnalysisStage.digestFields, Json.nodupKeys, Json.nodupKeysFields, List.map_cons,
        List.map_nil]
      decide
    · simp only [AnalysisStage.digestFields, Json.allStrings, Json.allStringsFields, hname, htext,
        hin, hbasis, hout]
      decide
  constructor
  · show Json.nodupKeysItems _ = true
    rw [nodupKeysItems_eq, List.all_map, List.all_eq_true]
    intro s hs
    rw [Function.comp_apply]
    exact (heach s hs).1
  · show Json.allStringsItems inRange _ = true
    rw [allStringsItems_eq, List.all_map, List.all_eq_true]
    intro s hs
    rw [Function.comp_apply]
    exact (heach s hs).2

/-- The digest of an anatomy says the output of each stage. -/
theorem output_of_digestFields {s s' : AnalysisStage}
    (h : (Json.dict s.digestFields).canonical = (Json.dict s'.digestFields).canonical) :
    s.outputSha256 = s'.outputSha256 := by
  have hnames : (s.digestFields.map Prod.fst).Nodup := by
    simp only [AnalysisStage.digestFields, List.map_cons, List.map_nil]
    decide
  have hsame : s.digestFields.map Prod.fst = s'.digestFields.map Prod.fst := rfl
  have hall := fields_of_canonical hnames hsame h
  simp only [AnalysisStage.digestFields, List.map_cons, List.map_nil, List.cons.injEq,
    Prod.mk.injEq, Json.canonical, Json.str.injEq, true_and, and_true] at hall
  exact hall.2.2.2.2.2

/-- Anatomies with a different output have a different digest. -/
theorem anatomySha256_ne (hinj : DigestInjective rt) {input input' : PyStr}
    {results results' : List StageResult} {anatomy anatomy' : AnalysisAnatomy}
    (hinput : inRange input = true) (hinput' : inRange input' = true)
    (h : StagesOf rt upper truthLabel sourceRevision (analysisStages.zip stageStates) input results
      anatomy.stages)
    (h' : StagesOf rt upper truthLabel sourceRevision (analysisStages.zip stageStates) input'
      results' anatomy'.stages) {i : Nat}
    (hne : (anatomy.stages.map AnalysisStage.outputSha256)[i]?
      ≠ (anatomy'.stages.map AnalysisStage.outputSha256)[i]?) {digest : PyStr}
    (hdigest : anatomySha256 rt anatomy = .ok digest) :
    anatomySha256 rt anatomy' ≠ .ok digest := by
  intro hdigest'
  have hcanonical := hinj.injective _ _ _ (digestFields_value hinj hinput h)
    (digestFields_value hinj hinput' h') hdigest hdigest'
  have houtputs : ∀ stages stages' : List AnalysisStage,
      stages.map (fun s => (Json.dict s.digestFields).canonical)
        = stages'.map (fun s => (Json.dict s.digestFields).canonical) →
      stages.map AnalysisStage.outputSha256 = stages'.map AnalysisStage.outputSha256 := by
    intro stages
    induction stages with
    | nil =>
      intro stages' heq
      rw [List.map_eq_nil_iff.mp heq.symm]
    | cons s stages ih =>
      intro stages' heq
      cases stages' with
      | nil => cases heq
      | cons s' stages' =>
        obtain ⟨hhead, htail⟩ := List.cons.inj heq
        rw [List.map_cons, List.map_cons, output_of_digestFields hhead, ih stages' htail]
  apply hne
  rw [houtputs anatomy.stages anatomy'.stages]
  have hlists := Json.list.inj hcanonical
  rw [canonicalItems_eq, canonicalItems_eq, List.map_map, List.map_map] at hlists
  exact hlists

end Binding

/-! ## §4. What is admitted. -/

/-- A stage whose constants can be digested. -/
def PlainStage (stage : AnalysisStageSpec × List PyStr) : Prop :=
  noSurrogates stage.1.stage = true ∧ noSurrogates stage.1.operation = true ∧
    stage.2.all noSurrogates = true ∧ (Json.int stage.1.sequence).encodable = true

theorem plainStages : ∀ stage ∈ analysisStages.zip stageStates, PlainStage stage := by
  unfold PlainStage
  decide +kernel

/-- The digest of an anatomy with digests for inputs and outputs is defined. -/
theorem anatomySha256_defined {rt : Interpreter} (hrepr : ReprRoundTrip rt)
    {upper : PyStr → PyStr} {truthLabel : TruthLabel} {sourceRevision : Option PyStr}
    (hhex : ∀ bytes, isSha256Hex (rt.sha256 bytes) = true) {input : PyStr}
    (hinput : isSha256Hex input = true) {results : List StageResult} {anatomy : AnalysisAnatomy}
    (h : StagesOf rt.toRuntime upper truthLabel sourceRevision (analysisStages.zip stageStates)
      input results anatomy.stages) :
    ∃ digest, anatomySha256 rt.toRuntime anatomy = .ok digest := by
  have heach : ∀ s ∈ anatomy.stages, (Json.dict s.digestFields).encodable = true ∧
      (Json.dict s.digestFields).allStrings noSurrogates = true := by
    intro s hs
    obtain ⟨stage, hmem, hspec, hstate⟩ := h.mem s hs
    obtain ⟨hstage, _, hstates, hsequence⟩ := plainStages stage hmem
    have htext : noSurrogates s.state = true := List.all_eq_true.mp hstates _ hstate
    obtain ⟨hin, hbasis, hout⟩ := h.digestsSatisfy (p := fun d => isSha256Hex d = true)
      (fun hv => digest_satisfies (p := fun d => isSha256Hex d = true) hhex hv) hinput s hs
    rw [← hspec] at hstage hsequence
    constructor
    · simp only [AnalysisStage.digestFields, Json.encodable, Json.encodableFields] at hsequence ⊢
      rw [hsequence]
      rfl
    · simp only [AnalysisStage.digestFields, Json.allStrings, Json.allStringsFields, hstage, htext,
        noSurrogates_of_hex hin, noSurrogates_of_hex hbasis, noSurrogates_of_hex hout]
      decide
  apply (sha256Json_defined hrepr ?_).mpr
  · show Json.allStringsItems noSurrogates _ = true
    rw [allStringsItems_eq, List.all_map, List.all_eq_true]
    exact fun s hs => (heach s hs).2
  · show Json.encodableItems _ = true
    rw [encodableItems_eq, List.all_map, List.all_eq_true]
    exact fun s hs => (heach s hs).1

section AdmittedStage

variable {rt : Interpreter} {upper : PyStr → PyStr} {truthLabel : TruthLabel}
variable {sourceRevision : Option PyStr}

/-- A state that the stage may end in, with a result that can be digested. -/
structure AdmittedStage (upper : PyStr → PyStr) (stage : AnalysisStageSpec × List PyStr)
    (r : StageResult) : Prop where
  state : upper (strip r.state) ∈ stage.2
  encodable : r.result.json.encodable = true
  plain : r.result.json.allStrings noSurrogates = true

theorem buildStage_defined (hrepr : ReprRoundTrip rt)
    (hrevision : (Json.ofOption sourceRevision).allStrings noSurrogates = true)
    (hdigest : ∀ bytes, noSurrogates (rt.sha256 bytes) = true)
    {stage : AnalysisStageSpec × List PyStr} (hstage : PlainStage stage) {input : PyStr}
    (hinput : noSurrogates input = true) {r : StageResult} (hr : AdmittedStage upper stage r) :
    ∃ s, buildStage rt.toRuntime upper truthLabel sourceRevision stage input r = .ok s := by
  obtain ⟨hname, hoperation, hstates, hsequence⟩ := hstage
  have hlabel : noSurrogates truthLabel.value = true := by
    cases truthLabel with
    | measured | reported | modeled | sample | roadmap | unavailable => decide
  have hoption : (Json.ofOption sourceRevision).encodable = true := by
    cases sourceRevision with
    | none => rfl
    | some t => rfl
  have hbasis : ∃ basis, sha256Json rt.toRuntime
      (.dict (basisFields stage.1 truthLabel sourceRevision input)) = .ok basis := by
    apply (sha256Json_defined hrepr ?_).mpr
    · simp only [basisFields, Json.allStrings, Json.allStringsFields, hname, hoperation, hinput,
        hlabel, hrevision]
      decide
    · simp only [basisFields, Json.encodable, Json.encodableFields, hoption] at hsequence ⊢
      rw [hsequence]
      rfl
  obtain ⟨basis, hbasis⟩ := hbasis
  have hbasisPlain : noSurrogates basis = true :=
    digest_satisfies (p := fun d => noSurrogates d = true) hdigest hbasis
  have hstate : noSurrogates (upper (strip r.state)) = true :=
    List.all_eq_true.mp hstates _ hr.state
  have houtput : ∃ output, sha256Json rt.toRuntime
      (.dict (outputFields stage.1 (upper (strip r.state)) basis r.result)) = .ok output := by
    apply (sha256Json_defined hrepr ?_).mpr
    · simp only [outputFields, Json.allStrings, Json.allStringsFields, hname, hstate, hbasisPlain,
        hr.plain]
      decide
    · simp only [outputFields, Json.encodable, Json.encodableFields, hr.encodable]
      rfl
  obtain ⟨output, houtput⟩ := houtput
  have hcontains : stage.2.contains (upper (strip r.state)) = true := by
    rw [List.contains_iff_mem]
    exact hr.state
  unfold buildStage
  simp only [hcontains, hbasis, houtput, bind, Except.bind]
  exact ⟨_, rfl⟩

theorem buildStages_defined (hrepr : ReprRoundTrip rt)
    (hrevision : (Json.ofOption sourceRevision).allStrings noSurrogates = true)
    (hdigest : ∀ bytes, noSurrogates (rt.sha256 bytes) = true)
    {stages : List (AnalysisStageSpec × List PyStr)} {results : List StageResult}
    (hresults : List.Forall₂ (AdmittedStage upper) stages results)
    (hstages : ∀ stage ∈ stages, PlainStage stage) {input : PyStr}
    (hinput : noSurrogates input = true) :
    ∃ built, buildStages rt.toRuntime upper truthLabel sourceRevision stages input results
      = .ok built := by
  induction hresults generalizing input with
  | nil => exact ⟨[], rfl⟩
  | cons hr _ ih =>
    obtain ⟨s, hs⟩ := @buildStage_defined rt upper truthLabel sourceRevision hrepr hrevision hdigest
      _ (hstages _ List.mem_cons_self) input hinput _ hr
    have hout := (buildStage_ok hs).output
    obtain ⟨rest, hrest⟩ := ih (fun t ht => hstages t (List.mem_cons_of_mem _ ht))
      (digest_satisfies (p := fun d => noSurrogates d = true) hdigest hout)
    refine ⟨s :: rest, ?_⟩
    unfold buildStages
    rw [hs]
    show (buildStages rt.toRuntime upper truthLabel sourceRevision _ s.outputSha256 _ >>= _) = _
    rw [hrest]
    rfl

/-- **Nine allowed states with results that can be digested are admitted.** -/
theorem buildAnalysisAnatomy_defined (hrepr : ReprRoundTrip rt)
    (hrevision : (Json.ofOption sourceRevision).allStrings noSurrogates = true)
    (hdigest : ∀ bytes, noSurrogates (rt.sha256 bytes) = true) {results : List StageResult}
    (hresults : List.Forall₂ (AdmittedStage upper) (analysisStages.zip stageStates) results)
    {input : PyStr} (hinput : noSurrogates input = true) (traceId : Uuid) :
    ∃ anatomy, buildAnalysisAnatomy rt.toRuntime upper input truthLabel sourceRevision results
      traceId = .ok anatomy := by
  obtain ⟨built, hbuilt⟩ := @buildStages_defined rt upper truthLabel sourceRevision hrepr hrevision
    hdigest _ _ hresults plainStages _ hinput
  have hlength := hresults.length_eq
  refine ⟨⟨traceId, built⟩, ?_⟩
  unfold buildAnalysisAnatomy
  rw [if_neg (by rw [not_not, ← hlength]; rfl), hbuilt]
  rfl

end AdmittedStage

/-! ## §5. The result. -/

/-- **Builder and validator agree, and the digests bind.**  Under hexadecimal digests the
traces of every anatomy that is built over an input digest pass the argument checks of a
bundle, for every scope and every clock that does not go back, and the digest recomputed
from their rows is that of the stages.  Under an injective digest, two anatomies over the
same input, label and revision that first differ at stage `i` have equal outputs before it,
different ones from it on, and different digests. -/
theorem anatomy_agrees_and_binds (rt : Interpreter) (hrepr : ReprRoundTrip rt)
    (upper : PyStr → PyStr) (truthLabel : TruthLabel) (sourceRevision : Option PyStr)
    (input : PyStr) :
    ((∀ bytes, isSha256Hex (rt.sha256 bytes) = true) → isSha256Hex input = true →
      ∀ results traceId anatomy,
        buildAnalysisAnatomy rt.toRuntime upper input truthLabel sourceRevision results traceId
          = .ok anatomy →
        ∀ (scope : Scope) (clock : Nat → Instant) (uuid : Nat → Uuid),
          (∀ m n, m ≤ n → (clock m).micros ≤ (clock n).micros) →
          ∃ traces, anatomy.toTraces rt.toRuntime scope clock uuid = .ok traces ∧
            (∀ receiptDraft memoryDraft requestDigest, isSha256Hex requestDigest = true →
              receiptDraft.payload.get (py "trace_id") = .str anatomy.traceId.text →
              memoryDraft.metadata.get (py "trace_id") = .str anatomy.traceId.text →
              checkBundleArguments rt.toRuntime scope receiptDraft memoryDraft traces requestDigest
                = .ok ()) ∧
            ∃ digest, anatomySha256 rt.toRuntime anatomy = .ok digest ∧
              ∀ (d : Dialect) (sup : Supply) (at_ : Stamp) (k : Nat) (n : Int) (p : Option PyStr)
                (rows : List AnatomyTraceRecord),
                traceRows rt.toRuntime sup scope at_ traces k n p = .ok rows →
                sha256Json rt.toRuntime
                  (.list ((rows.map (AnatomyTraceRecord.stored d)).map stageBasis)) = .ok digest) ∧
    (DigestInjective rt.toRuntime →
      ∀ results results' traceId traceId' anatomy anatomy',
        Texts input sourceRevision results → Texts input sourceRevision results' →
        buildAnalysisAnatomy rt.toRuntime upper input truthLabel sourceRevision results traceId
          = .ok anatomy →
        buildAnalysisAnatomy rt.toRuntime upper input truthLabel sourceRevision results' traceId'
          = .ok anatomy' →
        ∀ i < 9,
          (∀ j < i, ∀ r r', results[j]? = some r → results'[j]? = some r' → SameStage upper r r') →
          (∀ r r', results[i]? = some r → results'[i]? = some r' → ¬ SameStage upper r r') →
          (∀ j < i, (anatomy.stages.map AnalysisStage.outputSha256)[j]?
            = (anatomy'.stages.map AnalysisStage.outputSha256)[j]?) ∧
          (∀ j, i ≤ j → j < 9 → (anatomy.stages.map AnalysisStage.outputSha256)[j]?
            ≠ (anatomy'.stages.map AnalysisStage.outputSha256)[j]?) ∧
          ∀ digest, anatomySha256 rt.toRuntime anatomy = .ok digest →
            anatomySha256 rt.toRuntime anatomy' ≠ .ok digest) := by
  constructor
  · intro hhex hinput results traceId anatomy hbuild scope clock uuid hclock
    obtain ⟨_, hstages⟩ := stages_spec hbuild
    have hnames : ∀ stage ∈ analysisStages.zip stageStates, isName stage.1.operation = true := by
      decide
    have hready : ∀ s ∈ anatomy.stages, isName s.spec.operation = true ∧
        isSha256Hex s.inputSha256 = true ∧ isSha256Hex s.outputSha256 = true := by
      intro s hs
      obtain ⟨stage, hmem, hspec, _⟩ := hstages.mem s hs
      obtain ⟨hin, _, hout⟩ := hstages.digestsSatisfy (p := fun d => isSha256Hex d = true)
        (fun hv => digest_satisfies (p := fun d => isSha256Hex d = true) hhex hv) hinput s hs
      rw [hspec]
      exact ⟨hnames stage hmem, hin, hout⟩
    have htraces : anatomy.toTraces rt.toRuntime scope clock uuid
        = .ok (tracesOf scope anatomy.traceId clock uuid 0 none anatomy.stages) :=
      tracesFrom_ok hclock hready 0 none
    obtain ⟨digest, hdigest⟩ := anatomySha256_defined hrepr hhex hinput hstages
    refine ⟨_, htraces, ?_, digest, hdigest, ?_⟩
    · intro receiptDraft memoryDraft requestDigest hrequest hreceipt hmemory
      exact checkBundleArguments_ok hstages hrequest hreceipt hmemory
    · intro d sup at_ k n p rows hrows
      rw [stageBasis_built d hrows]
      exact hdigest
  · intro hinj results results' traceId traceId' anatomy anatomy' htexts htexts' hbuild hbuild'
      i hi hsame hdiffer
    obtain ⟨_, hstages⟩ := stages_spec hbuild
    obtain ⟨_, hstages'⟩ := stages_spec hbuild'
    have hnine : (analysisStages.zip stageStates).length = 9 := rfl
    have hlength := results_length hbuild
    have hlength' := results_length hbuild'
    have hout := hstages.outputs hinj textStages htexts.input hlength htexts.results
    have hout' := hstages'.outputs hinj textStages htexts'.input hlength' htexts'.results
    have hfun : ∀ stage start r r' out out',
        StageStep rt.toRuntime upper truthLabel sourceRevision stage start r out →
        StageStep rt.toRuntime upper truthLabel sourceRevision stage start r' out' →
        SameStage upper r r' → out = out' :=
      fun _ _ _ _ _ _ h h' hs => stageStep_eq h h' hs
    have hback : ∀ stage start start' r r' out,
        StageStep rt.toRuntime upper truthLabel sourceRevision stage start r out →
        StageStep rt.toRuntime upper truthLabel sourceRevision stage start' r' out →
        start = start' ∧ SameStage upper r r' :=
      fun _ _ _ _ _ _ h h' => stageStep_inj hinj htexts.revision h h'
    have hne := StageChain.outputs_ne hback hfun hout hout' hsame hdiffer
    rw [hnine] at hne
    refine ⟨?_, hne, ?_⟩
    · exact StageChain.outputs_eq hfun hout hout' hsame
    · intro digest hdigest
      exact anatomySha256_ne hinj htexts.input htexts'.input hstages hstages'
        (hne i (Nat.le_refl i) hi) hdigest

/-! Nine results, the fourth complete or partial, under a digest that is hexadecimal and
under one that is injective. -/

/-- **An injective `sha256` is injective on values**: their texts are read back. -/
theorem digestInjective_of_injective {rt : Interpreter} (hrepr : ReprRoundTrip rt)
    (htext : ∀ bytes, inRange (rt.sha256 bytes) = true)
    (hsha : ∀ x y, rt.sha256 x = rt.sha256 y → x = y) : DigestInjective rt.toRuntime := by
  have hbytes : ∀ {v : Json} {digest : PyStr}, sha256Json rt.toRuntime v = .ok digest →
      v.encodable = true ∧
        digest = rt.sha256 ((v.render rt.toRuntime).flatMap utf8Bytes) := by
    intro v digest h
    have hencodable := encodable_of_sha256Json _ h
    unfold sha256Json canonicalJson at h
    rw [if_pos hencodable] at h
    change sha256Text rt.toRuntime _ = _ at h
    unfold sha256Text utf8Encode at h
    by_cases hany : (v.render rt.toRuntime).any isSurrogate = true
    · rw [if_pos hany] at h
      cases h
    · rw [if_neg hany] at h
      cases h
      exact ⟨hencodable, rfl⟩
  refine ⟨htext, fun a b digest ha hb hda hdb => ?_⟩
  obtain ⟨hencodable, hdigest⟩ := hbytes hda
  obtain ⟨hencodable', hdigest'⟩ := hbytes hdb
  rw [hdigest'] at hdigest
  have hsame := hsha _ _ hdigest
  obtain ⟨n, hn⟩ := exists_fits a
  obtain ⟨k, hk⟩ := exists_fits b
  -- How deep the scanner may nest does not change a text.
  have hdeep : ReprRoundTrip { rt with scanDepth := n + k } := hrepr
  have hread := @loads_canonical { rt with scanDepth := n + k } [] hdeep a hencodable ha.1
    (hn (n + k) (by omega)) ha.2
  have hread' := @loads_canonical { rt with scanDepth := n + k } [] hdeep b hencodable' hb.1
    (hk (n + k) (by omega)) hb.2
  change loads _ _ ((b.render rt.toRuntime).flatMap utf8Bytes) = _ at hread'
  change loads _ _ ((a.render rt.toRuntime).flatMap utf8Bytes) = _ at hread
  rw [hsame, hread] at hread'
  exact Except.ok.inj hread'

/-- The digest of bytes is the bytes. -/
def transparentRuntime : Interpreter :=
  { integerRuntime with
    toRuntime := { integerRuntime.toRuntime with sha256 := fun bytes => bytes.map UInt8.toNat } }

theorem transparentRuntime_repr : ReprRoundTrip transparentRuntime := integerRuntime_repr

theorem transparentRuntime_injective : DigestInjective transparentRuntime.toRuntime := by
  apply digestInjective_of_injective transparentRuntime_repr
  · intro bytes
    unfold inRange
    rw [List.all_eq_true]
    intro c hc
    obtain ⟨b, _, rfl⟩ := List.mem_map.mp hc
    have hb := b.toNat_lt
    exact decide_eq_true (by omega)
  · intro x y h
    exact List.map_injective_iff.mpr (fun a b hab => UInt8.toNat_inj.mp hab) h

def asciiUppercase (s : PyStr) : PyStr := s.map (fun c => if isLower c then c - 32 else c)

/-- The results of nine stages, with the state of the fourth. -/
def sampleStages (formula : PyStr) : List StageResult :=
  [py " observed", py "VALIDATED", py "BOUND", formula, py "ENFORCED", py "REVIEW",
    py "VERIFIED", py "PERSISTED", py "APPENDED"].map (fun state => ⟨state, .empty⟩)

theorem transparentRuntime_plain (bytes : List UInt8) :
    noSurrogates (transparentRuntime.sha256 bytes) = true := by
  unfold noSurrogates
  rw [List.all_eq_true]
  intro c hc
  obtain ⟨b, _, rfl⟩ := List.mem_map.mp hc
  have hb := b.toNat_lt
  unfold isSurrogate
  simp only [Bool.not_eq_true', Bool.and_eq_false_iff, decide_eq_false_iff_not]
  omega

theorem sampleStages_admitted (formula : PyStr)
    (h : formula ∈ [py "CALCULATED", py "PARTIAL"]) :
    List.Forall₂ (AdmittedStage asciiUppercase) (analysisStages.zip stageStates)
      (sampleStages formula) := by
  have hformula : asciiUppercase (strip formula) ∈
      [py "CALCULATED", py "PARTIAL", py "UNAVAILABLE"] := by
    have hall : ∀ f ∈ [py "CALCULATED", py "PARTIAL"],
        asciiUppercase (strip f) ∈ [py "CALCULATED", py "PARTIAL", py "UNAVAILABLE"] := by decide
    exact hall formula h
  have hempty : ∀ stage state, asciiUppercase (strip state) ∈ stage.2 →
      AdmittedStage asciiUppercase stage ⟨state, .empty⟩ :=
    fun _ _ hstate => ⟨hstate, rfl, rfl⟩
  refine .cons (hempty _ _ (by decide)) (.cons (hempty _ _ (by decide))
    (.cons (hempty _ _ (by decide)) (.cons (hempty _ _ hformula)
    (.cons (hempty _ _ (by decide)) (.cons (hempty _ _ (by decide))
    (.cons (hempty _ _ (by decide)) (.cons (hempty _ _ (by decide))
    (.cons (hempty _ _ (by decide)) .nil))))))))

def sampleInput : PyStr := List.replicate 64 97

def sampleClock (n : Nat) : Instant :=
  ⟨(min n 18 : Nat), by omega, by unfold maxMicros; omega⟩

theorem anatomy_agrees_and_binds_sample :
    (∃ anatomy traces digest,
      buildAnalysisAnatomy integerRuntime.toRuntime asciiUppercase sampleInput .measured none
        (sampleStages (py "CALCULATED")) ⟨py "t"⟩ = .ok anatomy ∧
      anatomy.toTraces integerRuntime.toRuntime ⟨⟨py "a"⟩, ⟨py "b"⟩⟩ sampleClock
        (fun n => ⟨decimal n⟩) = .ok traces ∧
      anatomySha256 integerRuntime.toRuntime anatomy = .ok digest) ∧
    ∃ anatomy anatomy' : AnalysisAnatomy,
      (anatomy.stages.map AnalysisStage.outputSha256)[2]?
        = (anatomy'.stages.map AnalysisStage.outputSha256)[2]? ∧
      (anatomy.stages.map AnalysisStage.outputSha256)[8]?
        ≠ (anatomy'.stages.map AnalysisStage.outputSha256)[8]? := by
  constructor
  · have hrun : (buildAnalysisAnatomy integerRuntime.toRuntime asciiUppercase sampleInput .measured
        none (sampleStages (py "CALCULATED")) ⟨py "t"⟩).toOption.isSome = true := by decide +kernel
    cases hbuild : buildAnalysisAnatomy integerRuntime.toRuntime asciiUppercase sampleInput
        .measured none (sampleStages (py "CALCULATED")) ⟨py "t"⟩ with
    | error e =>
      rw [hbuild] at hrun
      cases hrun
    | ok anatomy =>
      have hclock : ∀ m n, m ≤ n → (sampleClock m).micros ≤ (sampleClock n).micros := by
        intro m n h
        show ((min m 18 : Nat) : Int) ≤ ((min n 18 : Nat) : Int)
        omega
      obtain ⟨traces, htraces, _, digest, hdigest, _⟩ :=
        (anatomy_agrees_and_binds integerRuntime integerRuntime_repr asciiUppercase .measured none
          sampleInput).1 polynomialDigest_hex (by decide) _ _ anatomy hbuild
          ⟨⟨py "a"⟩, ⟨py "b"⟩⟩ sampleClock (fun n => ⟨decimal n⟩) hclock
      exact ⟨anatomy, traces, digest, rfl, htraces, hdigest⟩
  · have htexts : ∀ formula, Texts sampleInput none (sampleStages formula) := by
      intro formula
      refine ⟨by decide, fun t ht => (by cases ht), fun r hr => ?_⟩
      obtain ⟨state, _, rfl⟩ := List.mem_map.mp hr
      rfl
    have hbuild : ∀ formula ∈ [py "CALCULATED", py "PARTIAL"], ∃ anatomy,
        buildAnalysisAnatomy transparentRuntime.toRuntime asciiUppercase sampleInput .measured
          none (sampleStages formula) ⟨py "t"⟩ = .ok anatomy := by
      intro formula hformula
      have hinput : noSurrogates sampleInput = true := by decide
      exact buildAnalysisAnatomy_defined transparentRuntime_repr rfl transparentRuntime_plain
        (sampleStages_admitted formula hformula) hinput ⟨py "t"⟩
    obtain ⟨anatomy, hone⟩ := hbuild (py "CALCULATED") (by decide)
    obtain ⟨anatomy', htwo⟩ := hbuild (py "PARTIAL") (by decide)
    have hsame : ∀ j < 3, ∀ r r', (sampleStages (py "CALCULATED"))[j]? = some r →
        (sampleStages (py "PARTIAL"))[j]? = some r' → SameStage asciiUppercase r r' := by
      intro j hj r r' hr hr'
      have heq : (sampleStages (py "CALCULATED"))[j]? = (sampleStages (py "PARTIAL"))[j]? := by
        have hcases : j = 0 ∨ j = 1 ∨ j = 2 := by omega
        rcases hcases with h | h | h
        · rw [h]
          rfl
        · rw [h]
          rfl
        · rw [h]
          rfl
      rw [heq, hr'] at hr
      cases hr
      exact ⟨rfl, rfl⟩
    have hdiffer : ∀ r r', (sampleStages (py "CALCULATED"))[3]? = some r →
        (sampleStages (py "PARTIAL"))[3]? = some r' → ¬ SameStage asciiUppercase r r' := by
      intro r r' hr hr' h
      cases hr
      cases hr'
      exact absurd h.1 (by decide)
    obtain ⟨hbefore, hafter, _⟩ :=
      (anatomy_agrees_and_binds transparentRuntime transparentRuntime_repr asciiUppercase .measured
        none sampleInput).2 transparentRuntime_injective _ _ _ _ anatomy anatomy'
        (htexts _) (htexts _)
        hone htwo 3 (by decide) hsame hdiffer
    exact ⟨anatomy, anatomy', hbefore 2 (by decide), hafter 8 (by decide) (by decide)⟩

end Lyte
