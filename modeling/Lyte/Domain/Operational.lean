import Lyte.Domain.Anatomy

/-
  Lyte.Domain.Operational — drafts of operational entity versions.
-/

namespace Lyte

inductive OperationalEntityKind where
  | source | sourceCursor | entity | userSubject | roleBinding | service | dependencyEdge
  | customerJourney | journeyStep | businessOutcome | outcomeMeasurement | telemetryWindow
  | agentTraceSummary | deploymentEvent | incident | incidentEvent | signal | recommendation
  | decision | actionRequest | outcomeVerification | evidenceReference | replaySnapshot
deriving DecidableEq

def OperationalEntityKind.value : OperationalEntityKind → PyStr
  | .source => py "Source"
  | .sourceCursor => py "SourceCursor"
  | .entity => py "Entity"
  | .userSubject => py "UserSubject"
  | .roleBinding => py "RoleBinding"
  | .service => py "Service"
  | .dependencyEdge => py "DependencyEdge"
  | .customerJourney => py "CustomerJourney"
  | .journeyStep => py "JourneyStep"
  | .businessOutcome => py "BusinessOutcome"
  | .outcomeMeasurement => py "OutcomeMeasurement"
  | .telemetryWindow => py "TelemetryWindow"
  | .agentTraceSummary => py "AgentTraceSummary"
  | .deploymentEvent => py "DeploymentEvent"
  | .incident => py "Incident"
  | .incidentEvent => py "IncidentEvent"
  | .signal => py "Signal"
  | .recommendation => py "Recommendation"
  | .decision => py "Decision"
  | .actionRequest => py "ActionRequest"
  | .outcomeVerification => py "OutcomeVerification"
  | .evidenceReference => py "EvidenceReference"
  | .replaySnapshot => py "ReplaySnapshot"

theorem OperationalEntityKind.value_inj {a b : OperationalEntityKind} (h : a.value = b.value) :
    a = b := by
  cases a <;> cases b <;> first | rfl | simp [OperationalEntityKind.value] at h

structure OperationalRecordDraft where
  entityKind : OperationalEntityKind
  entityId : PyStr
  name : PyStr
  body : JsonDict
  truthLabel : TruthLabel
  evidenceRefs : List PyStr
  sourceRevision : Option PyStr
  observedAt : Option Stamp
  metadata : JsonDict

/-- `_IDENTIFIER`: `^[A-Za-z0-9][A-Za-z0-9._:/~-]{0,255}$`. -/
def isIdentifier (s : PyStr) : Bool :=
  match s with
  | [] => false
  | c :: cs => isAlnum c && cs.length ≤ 255 &&
      cs.all (fun x => isAlnum x || x == 46 || x == 95 || x == 58 || x == 47 || x == 126 || x == 45)

/-- `re.fullmatch(r"[0-9a-f]{40}|[0-9a-f]{64}", s)`. -/
def isGitRevision (s : PyStr) : Bool :=
  (s.length == 40 || s.length == 64) && s.all isLowerHex

/-- `(source_revision or "").strip() or None`. -/
def cleanRevision (s : Option PyStr) : Option PyStr :=
  let r := strip (s.getD [])
  if r.isEmpty then none else some r

variable (rt : Runtime)

/-- `OperationalRecordDraft(…)` with its `__post_init__`. -/
def OperationalRecordDraft.new (entityKind : OperationalEntityKind) (entityId name : PyStr)
    (body : JsonDict) (truthLabel : TruthLabel) (evidenceRefs : List PyStr)
    (sourceRevision : Option PyStr) (observedAt : Option Stamp) (metadata : JsonDict) :
    Except Exn OperationalRecordDraft := do
  let entityId := strip entityId
  if !isIdentifier entityId then
    throw (.valueError (py "entity_id must match ^[A-Za-z0-9][A-Za-z0-9._:/~-]{0,255}$"))
  let name := squeeze name
  if name.isEmpty || 256 < name.length then
    throw (.valueError (py "name must contain 1-256 characters"))
  assertNoSensitiveKeys rt body.json (py "operational.body")
  assertNoSensitiveKeys rt metadata.json (py "operational.metadata")
  let _ ← canonicalJson rt body.json
  let _ ← canonicalJson rt metadata.json
  let refs := cleanRefs evidenceRefs
  if (truthLabel = .measured ∨ truthLabel = .reported) ∧ refs.isEmpty then
    throw (.valueError (py "MEASURED and REPORTED operational records require evidence_refs"))
  let sourceRevision := cleanRevision sourceRevision
  if sourceRevision.any (fun r => !isGitRevision r) then
    throw (.valueError (py "source_revision must be a lowercase Git SHA or SHA-256"))
  let _ ← isoOrNull observedAt
  return ⟨entityKind, entityId, name, body, truthLabel, refs, sourceRevision, observedAt, metadata⟩

end Lyte
