import Lyte.Domain.Anatomy
import Lyte.Lib.StageChain
import Lyte.Lib.Program
import Lyte.Connectors.StrictJson

/-
  Lyte.Intelligence.LivingAnatomy — nine stages in one digest chain.

  `buildAnalysisAnatomy` digests each stage twice: the basis says what the stage
  is and what came in, the output adds its state and its result.  The output of a
  stage is the input of the next.  `AnalysisAnatomy.toTraces` turns the stages
  into traces, each the parent span of the next.

      stages_spec      what the stages of an anatomy are;
      toTraces_spec    traces of stages with digests come out, whatever the scope,
                       under a clock that does not go back.
-/

namespace Lyte

open Transact

/-! ## §1. Stages. -/

def analysisAnatomySchema : PyStr := py "szl.lyte.analysis-anatomy/v1"
def stageBasisSchema : PyStr := py "szl.lyte.analysis-stage-basis/v1"
def stageOutputSchema : PyStr := py "szl.lyte.analysis-stage-output/v1"

structure AnalysisStageSpec where
  sequence : Int
  stage : PyStr
  description : PyStr
  organ : AnatomyOrgan
  operation : PyStr

/-- `ANALYSIS_STAGES`. -/
def analysisStages : List AnalysisStageSpec := [
  ⟨1, py "sense", py "Acquire an allowlisted source or explicit caller observation.",
    .source, py "analysis.sense"⟩,
  ⟨2, py "normalize", py "Validate request schema, aggregate bounds, units, and currency.",
    .signal, py "analysis.normalize"⟩,
  ⟨3, py "context",
    py "Bind authenticated tenant/workspace, declared service, and evidence references.",
    .signal, py "analysis.context"⟩,
  ⟨4, py "formula",
    py "Calculate reliability and economic results with explicit availability.",
    .reasoning, py "analysis.formula"⟩,
  ⟨5, py "policy", py "Deny effectors, unsupported authority, and unsupported causality.",
    .trustGate, py "analysis.policy"⟩,
  ⟨6, py "decide", py "Return REVIEW, ABSTAIN, or DENY for a human owner.",
    .trustGate, py "analysis.decide"⟩,
  ⟨7, py "verify",
    py "Check scoped evidence, receipt integrity, and runtime source; mark missing freshness.",
    .trustGate, py "analysis.verify"⟩,
  ⟨8, py "remember", py "Persist scoped summaries and evidence references, never raw tokens.",
    .secondBrain, py "analysis.remember"⟩,
  ⟨9, py "receipt", py "Append a finite canonical record to the scoped hash chain.",
    .receiptBus, py "analysis.receipt"⟩]

/-- `STAGE_STATES`. -/
def stageStates : List (List PyStr) := [
  [py "OBSERVED"],
  [py "VALIDATED"],
  [py "BOUND"],
  [py "CALCULATED", py "PARTIAL", py "UNAVAILABLE"],
  [py "ENFORCED", py "DENIED"],
  [py "REVIEW", py "ABSTAIN", py "DENY"],
  [py "VERIFIED", py "PARTIAL", py "FAILED", py "UNAVAILABLE"],
  [py "PERSISTED"],
  [py "APPENDED"]]

structure AnalysisStage where
  spec : AnalysisStageSpec
  state : PyStr
  inputSha256 : PyStr
  basisSha256 : PyStr
  outputSha256 : PyStr
  truthLabel : TruthLabel
  sourceRevision : Option PyStr

structure AnalysisAnatomy where
  traceId : Uuid
  stages : List AnalysisStage

/-- A state and a result, as a stage reports them. -/
structure StageResult where
  state : PyStr
  result : JsonDict

/-- The basis of a stage. -/
def basisFields (spec : AnalysisStageSpec) (truthLabel : TruthLabel)
    (sourceRevision : Option PyStr) (input : PyStr) : List (PyStr × Json) := [
  (py "schema", .str stageBasisSchema),
  (py "sequence", .int spec.sequence),
  (py "stage", .str spec.stage),
  (py "operation", .str spec.operation),
  (py "input_sha256", .str input),
  (py "truth_label", .str truthLabel.value),
  (py "source_revision", Json.ofOption sourceRevision)]

/-- What is digested as the output of a stage. -/
def outputFields (spec : AnalysisStageSpec) (state basisSha256 : PyStr) (result : JsonDict) :
    List (PyStr × Json) := [
  (py "schema", .str stageOutputSchema),
  (py "stage", .str spec.stage),
  (py "state", .str state),
  (py "basis_sha256", .str basisSha256),
  (py "result", result.json)]

section Build

variable (rt : Runtime)
-- `str.upper`
variable (upper : PyStr → PyStr)

/-- One round of the loop of `build_analysis_anatomy`. -/
def buildStage (truthLabel : TruthLabel) (sourceRevision : Option PyStr)
    (stage : AnalysisStageSpec × List PyStr) (input : PyStr) (r : StageResult) :
    Except Exn AnalysisStage := do
  let normalized := upper (strip r.state)
  if !stage.2.contains normalized then
    throw (.valueError (py "invalid state for analysis stage " ++ stage.1.stage))
  let basisSha256 ← sha256Json rt (.dict (basisFields stage.1 truthLabel sourceRevision input))
  let outputSha256 ← sha256Json rt (.dict (outputFields stage.1 normalized basisSha256 r.result))
  return {
    spec := stage.1
    state := normalized
    inputSha256 := input
    basisSha256 := basisSha256
    outputSha256 := outputSha256
    truthLabel := truthLabel
    sourceRevision := sourceRevision }

/-- The loop: the output of a stage is the input of the next. -/
def buildStages (truthLabel : TruthLabel) (sourceRevision : Option PyStr) :
    List (AnalysisStageSpec × List PyStr) → PyStr → List StageResult →
      Except Exn (List AnalysisStage)
  | stage :: stages, input, r :: results => do
      let built ← buildStage rt upper truthLabel sourceRevision stage input r
      let rest ← buildStages truthLabel sourceRevision stages built.outputSha256 results
      return built :: rest
  | _, _, _ => return []

/-- `build_analysis_anatomy`, with the trace id it was given or drew. -/
def buildAnalysisAnatomy (inputSha256 : PyStr) (truthLabel : TruthLabel)
    (sourceRevision : Option PyStr) (stageResults : List StageResult) (traceId : Uuid) :
    Except Exn AnalysisAnatomy :=
  if stageResults.length ≠ analysisStages.length then
    .error (.valueError (py "analysis anatomy requires exactly nine stage results"))
  else do
    let stages ← buildStages rt upper truthLabel sourceRevision
      (analysisStages.zip stageStates) inputSha256 stageResults
    return ⟨traceId, stages⟩

/-- What the digest of an anatomy says of one stage. -/
def AnalysisStage.digestFields (s : AnalysisStage) : List (PyStr × Json) := [
  (py "sequence", .int s.spec.sequence),
  (py "stage", .str s.spec.stage),
  (py "state", .str s.state),
  (py "input_sha256", .str s.inputSha256),
  (py "basis_sha256", .str s.basisSha256),
  (py "output_sha256", .str s.outputSha256)]

/-- `anatomy_sha256`, as `analyze` computes it. -/
def anatomySha256 (anatomy : AnalysisAnatomy) : Except Exn PyStr :=
  sha256Json rt (.list (anatomy.stages.map (fun s => .dict s.digestFields)))

end Build

/-! ## §2. Traces. -/

def AnalysisStage.attributeFields (s : AnalysisStage) : List (PyStr × Json) := [
  (py "schema", .str analysisAnatomySchema),
  (py "sequence", .int s.spec.sequence),
  (py "stage", .str s.spec.stage),
  (py "stage_state", .str s.state),
  (py "basis_sha256", .str s.basisSha256),
  (py "description", .str s.spec.description),
  (py "source_revision", Json.ofOption s.sourceRevision),
  (py "human_approval_required", .bool true),
  (py "can_authorize", .bool false),
  (py "can_execute", .bool false),
  (py "effectors_enabled", .bool false)]

theorem ofOption_nodupKeys (s : Option PyStr) : (Json.ofOption s).nodupKeys = true := by
  cases s with
  | none => rfl
  | some s => rfl

theorem AnalysisStage.attributes_nodup (s : AnalysisStage) :
    (Json.dict s.attributeFields).nodupKeys = true := by
  unfold attributeFields
  simp only [Json.nodupKeys, Json.nodupKeysFields, ofOption_nodupKeys, List.map_cons, List.map_nil]
  decide

/-- The attributes of the trace of a stage. -/
def AnalysisStage.attributes (s : AnalysisStage) : JsonDict :=
  ⟨s.attributeFields, s.attributes_nodup⟩

section Traces

variable (rt : Runtime)

/-- The trace of one stage, started and finished. -/
def AnalysisStage.toTrace (s : AnalysisStage) (scope : Scope) (traceId spanId : Uuid)
    (parentSpanId : Option Uuid) (startedAt completedAt : Instant) : Except Exn AnatomyTrace := do
  let started ← AnatomyTrace.start rt scope s.spec.organ s.spec.operation traceId spanId
    parentSpanId s.truthLabel (some s.inputSha256) s.attributes startedAt
  started.finish rt .completed (some s.outputSha256) completedAt

/-- The loop of `to_traces`; `clock` and `uuid` are what `utc_now` and `uuid4` return, call
by call. -/
def tracesFrom (scope : Scope) (traceId : Uuid) (clock : Nat → Instant) (uuid : Nat → Uuid) :
    Nat → Option Uuid → List AnalysisStage → Except Exn (List AnatomyTrace)
  | _, _, [] => return []
  | i, parentSpanId, s :: stages => do
      let terminal ← s.toTrace rt scope traceId (uuid i) parentSpanId (clock (2 * i))
        (clock (2 * i + 1))
      let traces ← tracesFrom scope traceId clock uuid (i + 1) (some terminal.spanId) stages
      return terminal :: traces

/-- `AnalysisAnatomy.to_traces`. -/
def AnalysisAnatomy.toTraces (anatomy : AnalysisAnatomy) (scope : Scope) (clock : Nat → Instant)
    (uuid : Nat → Uuid) : Except Exn (List AnatomyTrace) :=
  tracesFrom rt scope anatomy.traceId clock uuid 0 none anatomy.stages

end Traces

/-! ## §3. What a stage is. -/

section Spec

variable {rt : Runtime} {upper : PyStr → PyStr} {truthLabel : TruthLabel}
variable {sourceRevision : Option PyStr}

/-- What a stage was built as. -/
structure StageOf (rt : Runtime) (upper : PyStr → PyStr) (truthLabel : TruthLabel)
    (sourceRevision : Option PyStr) (stage : AnalysisStageSpec × List PyStr) (input : PyStr)
    (r : StageResult) (s : AnalysisStage) : Prop where
  spec : s.spec = stage.1
  allowed : s.state ∈ stage.2
  state : s.state = upper (strip r.state)
  incoming : s.inputSha256 = input
  label : s.truthLabel = truthLabel
  revision : s.sourceRevision = sourceRevision
  basis : sha256Json rt (.dict (basisFields stage.1 truthLabel sourceRevision input))
    = .ok s.basisSha256
  output : sha256Json rt (.dict (outputFields stage.1 s.state s.basisSha256 r.result))
    = .ok s.outputSha256

theorem buildStage_ok {stage : AnalysisStageSpec × List PyStr} {input : PyStr} {r : StageResult}
    {s : AnalysisStage} (h : buildStage rt upper truthLabel sourceRevision stage input r = .ok s) :
    StageOf rt upper truthLabel sourceRevision stage input r s := by
  unfold buildStage at h
  simp only at h
  split at h
  · cases h
  · next hstate =>
    obtain ⟨basis, hbasis, h⟩ := ok_of_bind h
    obtain ⟨output, houtput, h⟩ := ok_of_bind h
    cases h
    have hmem : upper (strip r.state) ∈ stage.2 := by simpa using hstate
    exact ⟨rfl, hmem, rfl, rfl, rfl, rfl, hbasis, houtput⟩

/-- Each stage was built on the output of the one before it. -/
def StagesOf (rt : Runtime) (upper : PyStr → PyStr) (truthLabel : TruthLabel)
    (sourceRevision : Option PyStr) : List (AnalysisStageSpec × List PyStr) → PyStr →
      List StageResult → List AnalysisStage → Prop
  | stage :: stages, input, r :: results, s :: built =>
      StageOf rt upper truthLabel sourceRevision stage input r s ∧
        StagesOf rt upper truthLabel sourceRevision stages s.outputSha256 results built
  | [], _, _, built => built = []
  | _, _, _, _ => False

theorem buildStages_ok {stages : List (AnalysisStageSpec × List PyStr)} {input : PyStr}
    {results : List StageResult} {built : List AnalysisStage}
    (hlength : results.length = stages.length)
    (h : buildStages rt upper truthLabel sourceRevision stages input results = .ok built) :
    StagesOf rt upper truthLabel sourceRevision stages input results built := by
  induction stages generalizing input results built with
  | nil =>
    cases h
    rfl
  | cons stage stages ih =>
    cases results with
    | nil => cases hlength
    | cons r results =>
      unfold buildStages at h
      obtain ⟨s, hs, h⟩ := ok_of_bind h
      obtain ⟨rest, hrest, h⟩ := ok_of_bind h
      cases h
      exact ⟨buildStage_ok hs, ih (Nat.succ.inj hlength) hrest⟩

/-- **What the stages of an anatomy are.** -/
theorem stages_spec {inputSha256 : PyStr} {stageResults : List StageResult} {traceId : Uuid}
    {anatomy : AnalysisAnatomy}
    (h : buildAnalysisAnatomy rt upper inputSha256 truthLabel sourceRevision stageResults traceId
      = .ok anatomy) :
    anatomy.traceId = traceId ∧
      StagesOf rt upper truthLabel sourceRevision (analysisStages.zip stageStates) inputSha256
        stageResults anatomy.stages := by
  unfold buildAnalysisAnatomy at h
  split at h
  · cases h
  · next hlength =>
    rw [not_not] at hlength
    obtain ⟨stages, hstages, h⟩ := ok_of_bind h
    cases h
    exact ⟨rfl, buildStages_ok hlength hstages⟩

/-! ## §4. What a trace is. -/

/-- The trace of a stage. -/
def traceOf (s : AnalysisStage) (scope : Scope) (traceId spanId : Uuid)
    (parentSpanId : Option Uuid) (startedAt completedAt : Instant) : AnatomyTrace where
  scope := scope
  traceId := traceId
  spanId := spanId
  organ := s.spec.organ
  operation := s.spec.operation
  state := .completed
  truthLabel := s.truthLabel
  startedAt := startedAt.stamp
  parentSpanId := parentSpanId
  completedAt := some completedAt.stamp
  inputSha256 := some s.inputSha256
  outputSha256 := some s.outputSha256
  attributes := s.attributes

theorem attributes_plain (s : AnalysisStage) :
    sensitivePath rt s.attributes.json (py "attributes") = none := by
  have hkeys : ∀ fields : List (PyStr × Json), (fields.map Prod.fst).all isPlainKey = true →
      (∀ f ∈ fields, ∀ path, sensitivePath rt f.2 path = none) → ∀ path,
      sensitivePathFields rt fields path = none := by
    intro fields
    induction fields with
    | nil => exact fun _ _ _ => rfl
    | cons f fields ih =>
      intro hkeys hvalues path
      rw [List.map_cons, List.all_cons, Bool.and_eq_true] at hkeys
      unfold sensitivePathFields
      rw [if_neg (by rw [isSensitiveKey_plain rt hkeys.1]; exact Bool.false_ne_true),
        hvalues f List.mem_cons_self]
      exact ih hkeys.2 (fun g hg => hvalues g (List.mem_cons_of_mem _ hg)) path
  show sensitivePathFields rt s.attributeFields (py "attributes") = none
  apply hkeys
  · show (s.attributeFields.map Prod.fst).all isPlainKey = true
    simp only [AnalysisStage.attributeFields, List.map_cons, List.map_nil]
    decide +kernel
  · intro f hf path
    unfold AnalysisStage.attributeFields at hf
    simp only [List.mem_cons, List.not_mem_nil, or_false] at hf
    have hoption : ∀ o : Option PyStr, sensitivePath rt (Json.ofOption o) path = none := by
      intro o
      cases o with
      | none => rfl
      | some s => rfl
    rcases hf with rfl | rfl | rfl | rfl | rfl | rfl | rfl | rfl | rfl | rfl | rfl
    all_goals first
      | rfl
      | exact hoption _

/-- **The trace of a stage with digests is admitted.** -/
theorem toTrace_ok {s : AnalysisStage} (hname : isName s.spec.operation = true)
    (hinput : isSha256Hex s.inputSha256 = true) (houtput : isSha256Hex s.outputSha256 = true)
    (scope : Scope) (traceId spanId : Uuid) (parentSpanId : Option Uuid)
    {startedAt completedAt : Instant} (horder : startedAt.micros ≤ completedAt.micros) :
    s.toTrace rt scope traceId spanId parentSpanId startedAt completedAt
      = .ok (traceOf s scope traceId spanId parentSpanId startedAt completedAt) := by
  have hdigest : ∀ d, some s.inputSha256 = some d → isSha256Hex d = true := by
    intro d hd
    cases hd
    exact hinput
  have hdigest' : ∀ d, some s.outputSha256 = some d → isSha256Hex d = true := by
    intro d hd
    cases hd
    exact houtput
  unfold AnalysisStage.toTrace AnatomyTrace.start
  rw [AnatomyTrace.checked_ok hname (requireTimes_started startedAt) hdigest
    (fun d hd => by cases hd) (attributes_plain s)]
  show AnatomyTrace.checked rt (traceOf s scope traceId spanId parentSpanId startedAt completedAt)
    = _
  have hterminal : TraceState.completed ≠ .started := by decide
  exact AnatomyTrace.checked_ok hname (requireTimes_finished hterminal horder) hdigest
    hdigest' (attributes_plain s)

/-- The traces of the stages from the `i`-th on. -/
def tracesOf (scope : Scope) (traceId : Uuid) (clock : Nat → Instant) (uuid : Nat → Uuid) :
    Nat → Option Uuid → List AnalysisStage → List AnatomyTrace
  | _, _, [] => []
  | i, parentSpanId, s :: stages =>
      traceOf s scope traceId (uuid i) parentSpanId (clock (2 * i)) (clock (2 * i + 1)) ::
        tracesOf scope traceId clock uuid (i + 1) (some (uuid i)) stages

/-- **Stages with digests have traces.** -/
theorem tracesFrom_ok {scope : Scope} {traceId : Uuid} {clock : Nat → Instant}
    {uuid : Nat → Uuid} (hclock : ∀ m n, m ≤ n → (clock m).micros ≤ (clock n).micros)
    {stages : List AnalysisStage} (hstages : ∀ s ∈ stages, isName s.spec.operation = true ∧
      isSha256Hex s.inputSha256 = true ∧ isSha256Hex s.outputSha256 = true)
    (i : Nat) (parentSpanId : Option Uuid) :
    tracesFrom rt scope traceId clock uuid i parentSpanId stages
      = .ok (tracesOf scope traceId clock uuid i parentSpanId stages) := by
  induction stages generalizing i parentSpanId with
  | nil => rfl
  | cons s stages ih =>
    obtain ⟨hname, hinput, houtput⟩ := hstages s List.mem_cons_self
    unfold tracesFrom
    rw [toTrace_ok hname hinput houtput scope traceId (uuid i) parentSpanId
      (hclock (2 * i) (2 * i + 1) (by omega))]
    show (tracesFrom rt scope traceId clock uuid (i + 1) (some (uuid i)) stages >>= _) = _
    rw [ih (fun t ht => hstages t (List.mem_cons_of_mem _ ht))]
    rfl

end Spec

end Lyte
