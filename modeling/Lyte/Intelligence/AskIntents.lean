import Lyte.Intelligence.EnterpriseAsk
import Lyte.Intelligence.ForecastLoom

/-
  Lyte.Intelligence.AskIntents — the other handlers of Ask Lyte.

  A handler selects the records of an answer (`Finding`, the arguments of
  `_answer`) or says what is missing (`Reply`).  Four of them rank the records of
  one kind, two pair the records of two kinds by time (`candidatesOf`), and
  `_answer` cites what was selected.

      askEnterprise_eq   a question is answered by the reply of its handler

  How floats are computed with and formatted is taken from `AskArithmetic`.
-/

namespace Lyte

open Search

/-- What the interpreter computes for an answer. -/
structure AskArithmetic extends Builtins, Arithmetic where
  /-- `format(value, spec)`. -/
  format : PyFloat → PyStr → PyStr

/-! ## §1. Replies. -/

/-- The binary64 constants 0.97, 0.85 and 0.8. -/
def confidence97 : PyFloat := ⟨0x3FEF0A3D70A3D70A⟩

def confidence85 : PyFloat := ⟨0x3FEB333333333333⟩

def confidence80 : PyFloat := ⟨0x3FE999999999999A⟩

/-- The arguments of `_answer`, with its defaults. -/
structure Finding where
  intent : PyStr
  text : PyStr
  rows : List OperationalRecord
  formulaIds : List PyStr := []
  limitations : List PyStr := []
  recommendedNextReview : Option PyStr := none
  confidence : PyFloat := confidence97
  modeled : Bool := false

/-- What a handler calls: `_unavailable` or `_answer`. -/
inductive Reply where
  | unavailable (intent reason : PyStr) (missing : List PyStr)
  | found (f : Finding)

/-- `_truth`. -/
def answerLabel (rows : List OperationalRecord) (modeled : Bool) : PyStr :=
  if modeled then TruthLabel.modeled.value else truthOf rows

/-- What `_answer` makes of its citations. -/
def foundAnswer (question : PyStr) (f : Finding) (citations : List Citation)
    (receiptIds : List PyStr) : EnterpriseAnswer :=
  if citations.isEmpty || receiptIds.isEmpty then
    unavailableAnswer question f.intent
      (py "selected operational records are not bound to a persisted workspace receipt")
      [py "a receipt-linked evidence projection"]
  else if (usedRows f.rows citations).length ≠ f.rows.length then
    unavailableAnswer question f.intent
      (py "every selected operational input requires a compatible persisted workspace receipt")
      [py "complete receipt coverage for the selected evidence inputs"]
  else {
    question := question
    intent := f.intent
    answer := some f.text
    truthLabel := answerLabel (usedRows f.rows citations) f.modeled
    citations := citations
    evidenceReceiptIds := receiptIds
    sourceEntities := (usedRows f.rows citations).map OperationalRecord.sourceRef
    formulaIds := fromkeys f.formulaIds
    limitations := f.limitations
    recommendedNextReview := f.recommendedNextReview
    confidence := f.confidence }

/-! ## §2. Values of a body. -/

/-- `candidate` of `_body_value`. -/
def bodyCandidate (body : List (PyStr × Json)) (name : PyStr) : Json :=
  let found :=
    match Json.get body (py "indicators") with
    | .dict indicators => Json.get indicators name
    | _ => .null
  match found with
  | .null => Json.get body name
  | value => value

/-- The label of a value object is of evidence that counts, or there is none. -/
def countedLabel : Json → Bool
  | .null => true
  | .str label => [TruthLabel.measured, .reported, .modeled].any (fun l => l.value == label)
  | _ => false

/-- `_body_value`. -/
def bodyValue (body : List (PyStr × Json)) : List PyStr → Json
  | [] => .null
  | name :: names =>
      match bodyCandidate body name with
      | .dict fields =>
          if (Json.lookup fields (py "value")).isSome then
            if countedLabel (Json.get fields (py "truth_label")) then
              Json.get fields (py "value")
            else .null
          else .dict fields
      | .null => bodyValue body names
      | value => value

/-- `_formula_ids`. -/
def formulaIdsOf (row : OperationalRecord) : List PyStr :=
  match Json.get row.body (py "indicators") with
  | .dict indicators => fromkeys (indicators.filterMap (fun i =>
      match i.2 with
      | .dict raw =>
          match Json.get raw (py "metadata") with
          | .dict metadata =>
              match Json.get metadata (py "formula") with
              | .str _ =>
                  some (if (py "_usd").isSuffixOf i.1 then i.1.take (i.1.length - 4) else i.1)
              | _ => none
          | _ => none
      | _ => none))
  | _ => []

/-- `_strings`. -/
def stringsOf (body : List (PyStr × Json)) (name : PyStr) : List PyStr :=
  match Json.get body name with
  | .list items => items.filterMap (fun item =>
      match item with
      | .str s => if (strip s).isEmpty then none else some s
      | _ => none)
  | _ => []

/-- `value in texts`, of a set of strings. -/
def inTexts (texts : List PyStr) : Json → Except Exn Bool
  | .str s => .ok (texts.contains s)
  -- lists and dicts are not hashable
  | .list _ => .error .typeError
  | .dict _ => .error .typeError
  | _ => .ok false

section Numbers

variable (ar : AskArithmetic)

/-- `float(n)`. -/
def AskArithmetic.floatOf (n : Int) : Except Exn PyFloat :=
  if 2 ^ 1024 - 2 ^ 970 ≤ n.natAbs then .error .overflowError else .ok (ar.ofInt n)

/-- `_number`. -/
def numberOf (body : List (PyStr × Json)) (names : List PyStr) : Except Exn (Option PyFloat) :=
  match bodyValue body names with
  | .int n => do
      let x ← ar.floatOf n
      return if x.isFinite then some x else none
  | .float x => .ok (if x.isFinite then some x else none)
  | _ => .ok none

/-- `_degraded`. -/
def degraded (row : OperationalRecord) : Bool :=
  let state := match Json.get row.body (py "state") with
    | .str s => ar.upper s
    | _ => []
  [py "DEGRADED", py "WATCH", py "AT_RISK", py "BREACH", py "FAIL"].any
    (fun marker => containsText marker state)

/-- `int(delta.total_seconds() // 60)`. -/
def minutesOf (delta : Int) : Int := ((ar.divInt delta 1000000).value / 60).floor

end Numbers

section Engine

variable (ar : AskArithmetic) (c : Collation) (d : Dialect) (db : Db) (scope : Scope)

/-- What a handler returns. -/
def respond (question : PyStr) : Reply → Except Exn EnterpriseAnswer
  | .unavailable intent reason missing => .ok (unavailableAnswer question intent reason missing)
  | .found f => do
      let found ← receiptsFor ar.toBuiltins d db scope f.rows
      return foundAnswer question f found.1 found.2

/-! ## §3. Ranked records. -/

/-- A record and a number that is read from it. -/
def numbered (names : List PyStr) (row : OperationalRecord) :
    Except Exn (Option (OperationalRecord × PyFloat)) := do
  let value ← numberOf ar row.body names
  return value.map (fun value => (row, value))

/-- `max(usable, key=lambda item: item[1])`. -/
def highest (usable : List (OperationalRecord × PyFloat)) :
    Option (OperationalRecord × PyFloat) :=
  firstBest (fun a b => b.2.lt a.2) usable

/-- `"checkout" in f"{row.entity_id} {row.name}".casefold()`. -/
def isCheckout (row : OperationalRecord) : Bool :=
  containsText (py "checkout") (ar.casefold (row.entityId ++ [32] ++ row.name))

/-- The answer about an outcome. -/
def checkoutFinding (row : OperationalRecord) (value : PyFloat) : Finding where
  intent := py "checkout_revenue_risk"
  text := row.name ++ py " reports $" ++ ar.format value (py ",.2f") ++
    py " at risk in the current scoped projection. " ++
    py "This is evidence-bound operational state, not a causal or guaranteed loss claim."
  rows := [row]
  formulaIds := if (formulaIdsOf row).isEmpty then [py "revenue_at_risk"] else formulaIdsOf row
  limitations := [py "causality is not established by the outcome projection"]
  recommendedNextReview := some (py "Review the receipt-linked outcome inputs and owning journey.")
  modeled := true

/-- `_checkout_revenue_risk`. -/
def checkoutRevenueRisk : Except Exn Reply := do
  let rows ← loadRecords c d db scope .businessOutcome
  let ranked ← (rows.filter (isCheckout ar)).mapM
    (numbered ar [py "revenue_at_risk_usd", py "revenue_at_risk"])
  return (highest ranked.reduceOption).elim
    (.unavailable (py "checkout_revenue_risk")
      (py "no receipt-backed checkout outcome contains a declared revenue-at-risk value")
      [py "checkout business outcome", py "revenue_at_risk_usd"])
    (fun best => .found (checkoutFinding ar best.1 best.2))

/-- The answer about a service. -/
def burnFinding (row : OperationalRecord) (value : PyFloat) : Finding where
  intent := py "highest_error_budget_burn"
  text := row.name ++ py " (" ++ row.entityId ++
    py ") has the highest available error-budget burn at " ++ ar.format value (py "g") ++
    py "x among the bounded current service projections."
  rows := [row]
  formulaIds :=
    if (formulaIdsOf row).isEmpty then [py "error_budget_burn_rate"] else formulaIdsOf row
  recommendedNextReview :=
    some (py "Review service " ++ row.entityId ++ py " and its receipt evidence.")

/-- `_highest_error_budget_burn`. -/
def highestErrorBudgetBurn : Except Exn Reply := do
  let rows ← loadRecords c d db scope .service
  let ranked ← rows.mapM (numbered ar [py "error_budget_burn", py "burn_rate"])
  return (highest ranked.reduceOption).elim
    (.unavailable (py "highest_error_budget_burn")
      (py "no service has receipt-backed error-budget burn evidence")
      [py "service error_budget_burn"])
    (fun best => .found (burnFinding ar best.1 best.2))

/-- The failure rate of an agent, or what its success rate leaves. -/
def failureOf (failure success : Option PyFloat) : Option PyFloat :=
  match failure, success with
  | none, some success => some (PyFloat.zero.max (ar.sub .one success))
  | failure, _ => failure

/-- An agent with its cost and its failure rate. -/
structure AgentRank where
  score : PyFloat
  row : OperationalRecord
  cost : PyFloat
  failure : PyFloat

/-- One turn of the loop over agents. -/
def rankAgent (row : OperationalRecord) : Except Exn (Option AgentRank) := do
  let cost ← numberOf ar row.body [py "cost_per_trace_usd", py "cost_usd"]
  let failure ← numberOf ar row.body [py "tool_failure_rate", py "failure_rate"]
  let success ← numberOf ar row.body [py "success_rate"]
  return Option.map₂ (fun cost failure => ⟨ar.mul cost failure, row, cost, failure⟩)
    cost (failureOf ar failure success)

/-- The answer about an agent. -/
def agentFinding (best : AgentRank) : Finding where
  intent := py "agent_cost_reliability"
  text := best.row.name ++
    py " is the highest combined cost/reliability review candidate in the " ++
    py "bounded set: $" ++ ar.format best.cost (py ",.4f") ++ py " per trace and " ++
    ar.format best.failure (py ".2%") ++ py " observed failure rate."
  rows := [best.row]
  limitations := [py "the ranking compares only agents with both required measures"]
  recommendedNextReview :=
    some (py "Review agent " ++ best.row.entityId ++ py " tool failures and cost drivers.")

/-- `_agent_cost_reliability`. -/
def agentCostReliability : Except Exn Reply := do
  let rows ← loadRecords c d db scope .agentTraceSummary
  let ranked ← rows.mapM (rankAgent ar)
  return (firstBest (fun a b => b.score.lt a.score) ranked.reduceOption).elim
    (.unavailable (py "agent_cost_reliability")
      (py "no agent projection contains both receipt-backed cost and reliability evidence")
      [py "agent cost_per_trace_usd", py "agent tool_failure_rate or success_rate"])
    (fun best => .found (agentFinding ar best))

/-! ## §4. Records in the order of their times. -/

/-- `_record_time`. -/
def recordTime (row : OperationalRecord) : Except Exn (Option Int) := do
  let found ← bodyTime ar.toBuiltins row.body
    [py "at", py "deployed_at", py "started_at", py "observed_at", py "occurred_at"]
  match found with
  | some t => return some t
  | none =>
      match row.observedAt with
      | some t => (parseStamp t).map some
      | none => return none

/-- A deployment, and a record after it. -/
structure TimedPair where
  later : OperationalRecord
  deployment : OperationalRecord
  laterTime : Int
  deploymentTime : Int

/-- How long the record is after the deployment. -/
def TimedPair.delta (p : TimedPair) : Int := p.laterTime - p.deploymentTime

/-- The deployment is of one of the services of the record, if it names any. -/
def isRelated (later deployment : OperationalRecord) : Except Exn Bool :=
  if (stringsOf later.body (py "service_ids")).isEmpty then .ok true
  else inTexts (stringsOf later.body (py "service_ids"))
    (Json.get deployment.body (py "service_id"))

/-- One turn of the loop over deployments. -/
def precedes (near : Int → Bool) (later : OperationalRecord) (laterTime : Int)
    (deployment : OperationalRecord) : Except Exn (Option TimedPair) := do
  let found ← recordTime ar deployment
  match found with
  | none => return none
  | some deploymentTime =>
      if laterTime < deploymentTime then return none
      else do
        let related ← isRelated later deployment
        return if related && near (laterTime - deploymentTime) then
          some ⟨later, deployment, laterTime, deploymentTime⟩ else none

/-- One turn of the loop over journeys, or incidents. -/
def candidatesAfter (near : Int → Bool) (deployments : List OperationalRecord)
    (later : OperationalRecord) : Except Exn (List TimedPair) := do
  let found ← recordTime ar later
  match found with
  | none => return []
  | some laterTime => do
      let pairs ← deployments.mapM (precedes ar near later laterTime)
      return pairs.reduceOption

/-- `candidates`. -/
def candidatesOf (near : Int → Bool) (deployments laters : List OperationalRecord) :
    Except Exn (List TimedPair) := do
  let pairs ← laters.mapM (candidatesAfter ar near deployments)
  return pairs.flatten

/-- `min(candidates, key=lambda item: item[0])`. -/
def closest (candidates : List TimedPair) : Option TimedPair :=
  firstBest (fun a b => a.delta < b.delta) candidates

/-- The answer about a journey. -/
def journeyFinding (p : TimedPair) : Finding where
  intent := py "pre_journey_change"
  text := p.deployment.name ++ py " at " ++ isoText p.deploymentTime ++
    py " preceded the degraded " ++ p.later.name ++ py " observation at " ++
    isoText p.laterTime ++ py " by " ++ decimalInt (minutesOf ar p.delta) ++
    py " minutes. Temporal order does not establish cause."
  rows := [p.deployment, p.later]
  limitations := [py "temporal precedence and correlation are not causality"]
  recommendedNextReview :=
    some (py "Review the deployment diff and the journey evidence window together.")
  confidence := confidence85

/-- `_pre_journey_change`. -/
def preJourneyChange : Except Exn Reply := do
  let journeys ← loadRecords c d db scope .customerJourney
  let deployments ← loadRecords c d db scope .deploymentEvent
  let candidates ← candidatesOf ar (fun _ => true) deployments (journeys.filter (degraded ar))
  return (closest candidates).elim
    (.unavailable (py "pre_journey_change")
      (py "no receipt-backed deployment is temporally comparable to a degraded journey")
      [py "degraded journey timestamp", py "preceding deployment timestamp"])
    (fun p => .found (journeyFinding ar p))

/-- The answer about an incident. -/
def incidentFinding (p : TimedPair) : Finding where
  intent := py "incident_deployment_correlation"
  text := p.deployment.name ++ py " at " ++ isoText p.deploymentTime ++
    py " is the closest preceding deployment for " ++ p.later.name ++
    py ", which began at " ++ isoText p.laterTime ++ py " (" ++
    decimalInt (minutesOf ar p.delta) ++
    py " minutes later). It is a candidate factor only."
  rows := [p.deployment, p.later]
  limitations := [py "the bounded temporal correlation does not prove causality"]
  recommendedNextReview :=
    some (py "Review the deployment change and incident evidence before attribution.")
  confidence := confidence80

/-- `_incident_deployment_correlation`. -/
def incidentDeploymentCorrelation : Except Exn Reply := do
  let incidents ← loadRecords c d db scope .incident
  let deployments ← loadRecords c d db scope .deploymentEvent
  let candidates ← candidatesOf ar (fun delta => delta ≤ 86400000000) deployments incidents
  return (closest candidates).elim
    (.unavailable (py "incident_deployment_correlation")
      (py "no receipt-backed deployment falls within the bounded 24-hour pre-incident window")
      [py "incident timestamp", py "related service deployment timestamp"])
    (fun p => .found (incidentFinding ar p))

/-! ## §5. Reviews and formulas. -/

/-- The filter of `decisions`. -/
def isReview (row : OperationalRecord) : Except Exn Bool := do
  let decision ← ar.textOf row.body (py "decision") []
  return ar.upper decision == py "REVIEW"

/-- The review that a recommendation asks for. -/
def reviewOf (row : OperationalRecord) : Option PyStr :=
  match Json.get row.body (py "recommended_next_review") with
  | .str review => if (strip review).isEmpty then none else some review
  | _ => none

/-- The answer about a recommendation. -/
def reviewFinding (row : OperationalRecord) (review : PyStr) : Finding where
  intent := py "operator_review_priority"
  text := py "Review " ++ row.name ++ py " first: " ++ squeeze review
  rows := [row]
  recommendedNextReview := some (squeeze review)

/-- The answer about a decision. -/
def decisionFinding (row : OperationalRecord) : Finding where
  intent := py "operator_review_priority"
  text := py "Review " ++ row.name ++
    py " and its linked evidence first; the decision remains REVIEW."
  rows := [row]
  recommendedNextReview :=
    some (py "Inspect decision " ++ row.entityId ++ py " with a named human owner.")

/-- The decisions of `_operator_review_priority`. -/
def decisionReply : Except Exn Reply := do
  let rows ← loadRecords c d db scope .decision
  let decisions ← keepOk (isReview ar) rows
  return decisions.head?.elim
    (.unavailable (py "operator_review_priority")
      (py "no receipt-backed recommendation or REVIEW decision exists")
      [py "operator review recommendation"])
    (fun row => .found (decisionFinding row))

/-- `_operator_review_priority`. -/
def operatorReviewPriority : Except Exn Reply := do
  let rows ← loadRecords c d db scope .recommendation
  (rows.findSome? (fun row => (reviewOf row).map (reviewFinding row))).elim
    (decisionReply ar c d db scope) (fun f => .ok (.found f))

/-- The answer about a record with formulas. -/
def formulasFinding (row : OperationalRecord) : Finding where
  intent := py "evidence_and_formulas"
  text := row.name ++ py " is bound to the declared formula(s) " ++
    (py ", ").intercalate (formulaIdsOf row) ++
    py " and the receipt-linked source projection cited first in this response. " ++
    py "Formulas do not authorize action."
  rows := [row]
  formulaIds := formulaIdsOf row
  limitations := [py "formula output is limited by the truth labels of its inputs"]
  recommendedNextReview :=
    some (py "Inspect the cited receipt and formula inputs before relying on the result.")
  modeled := true

/-- `_evidence_and_formulas`. -/
def evidenceAndFormulas : Except Exn Reply := do
  let outcomes ← loadRecords c d db scope .businessOutcome
  let services ← loadRecords c d db scope .service
  let journeys ← loadRecords c d db scope .customerJourney
  let rows := outcomes ++ services ++ journeys
  return (rows.find? (fun row => !(formulaIdsOf row).isEmpty)).elim
    (.unavailable (py "evidence_and_formulas")
      (py "no receipt-backed projection declares formula metadata")
      [py "formula-bound service, journey, or outcome projection"])
    (fun row => .found (formulasFinding row))

/-! ## §6. After an action. -/

/-- The call of `_unavailable` where nothing was selected. -/
def noPair : Reply :=
  .unavailable (py "post_action_outcome")
    (py "an improvement claim requires measured non-simulated execution and " ++
      py "outcome receipts linked to a subsequent verification window")
    [py "measured execution receipt", py "measured post-action outcome receipt",
      py "action-to-execution-to-outcome window link"]

/-- The call of `_answer` about what was selected. -/
def pairFinding (action verification : OperationalRecord) : Finding where
  intent := py "post_action_outcome"
  text := py "After recorded execution of " ++ action.name ++
    py ", measured outcome evidence reports: " ++ squeeze (summaryOf verification)
  rows := [action, verification]
  limitations := [py "the statement is limited to the cited verification window",
    py "stored receipt evidence is not independent certification"]
  recommendedNextReview := some (py "Continue monitoring the verified outcome window.")
  confidence := confidence90

/-- What `_post_action_outcome` calls. -/
def postActionReply : Except Exn Reply := do
  let rows ← loadRecords c d db scope .actionRequest
  let actions ← keepOk (byState ar.toBuiltins executedAction) rows
  let rows ← loadRecords c d db scope .outcomeVerification
  let verifications ← keepOk (byState ar.toBuiltins verifiedOutcome) rows
  let selected ← firstOk (pairOf ar.toBuiltins d db scope verifications) actions
  return selected.elim noPair (fun p => .found (pairFinding p.1 p.2))

/-- `_post_action_outcome` is what its reply says. -/
theorem postActionOutcome_eq (question : PyStr) :
    postActionOutcome ar.toBuiltins c d db scope question =
      postActionReply ar c d db scope >>= respond ar d db scope question := by
  unfold postActionOutcome postActionReply
  simp only [bind_assoc]
  apply bind_congr
  intro rows
  apply bind_congr
  intro actions
  apply bind_congr
  intro rows'
  apply bind_congr
  intro verifications
  apply bind_congr
  intro selected
  cases selected with
  | none => rfl
  | some p => rfl

/-! ## §7. Answers. -/

/-- The handler of an intent. -/
def handlerOf : Intent → Except Exn Reply
  | .postActionOutcome => postActionReply ar c d db scope
  | .evidenceAndFormulas => evidenceAndFormulas c d db scope
  | .operatorReviewPriority => operatorReviewPriority ar c d db scope
  | .incidentDeploymentCorrelation => incidentDeploymentCorrelation ar c d db scope
  | .agentCostReliability => agentCostReliability ar c d db scope
  | .preJourneyChange => preJourneyChange ar c d db scope
  | .highestErrorBudgetBurn => highestErrorBudgetBurn ar c d db scope
  | .checkoutRevenueRisk => checkoutRevenueRisk ar c d db scope
  | .unsupported => .ok (.unavailable (py "unsupported")
      (py "Ask Lyte supports only the documented deterministic question set")
      [py "a deterministic query definition for this question"])

/-- The handlers that `ask` takes. -/
def answerOf (intent : Intent) (question : PyStr) : Except Exn EnterpriseAnswer := do
  let reply ← handlerOf ar c d db scope intent
  respond ar d db scope question reply

/-- `ask_enterprise`. -/
def askEnterprise (question : PyStr) : Except Exn EnterpriseAnswer :=
  ask ar.toBuiltins c d db scope (answerOf ar c d db scope) question

/-- **A question is answered by the reply of its handler.** -/
theorem askEnterprise_eq (question : PyStr) : askEnterprise ar c d db scope question =
    cleanQuestion ar.toBuiltins question >>= fun q =>
      answerOf ar c d db scope (intentOf q.2) q.1 := by
  unfold askEnterprise ask
  apply bind_congr
  intro q
  obtain ⟨clean, normalized⟩ := q
  show _ = answerOf ar c d db scope (intentOf normalized) clean
  cases h : intentOf normalized with
  | postActionOutcome =>
    simp only [h]
    exact postActionOutcome_eq ar c d db scope clean
  | unsupported =>
    simp only [h]
    rfl
  | _ => simp only [h]

end Engine

end Lyte
