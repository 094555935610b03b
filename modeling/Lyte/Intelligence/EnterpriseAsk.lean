import Lyte.Domain.Builtins
import Lyte.Lib.Search
import Lyte.Lib.Tally
import Lyte.Persistence.OperationalListing

/-
  Lyte.Intelligence.EnterpriseAsk — the post-action answer of Ask Lyte.

  `EnterpriseAskEngine` answers from the current records and the receipts of one
  scope.  `postActionOutcome` looks for the first action and the first
  verification of it that their receipts bear out, and `_answer` cites whatever
  receipts `_receipts_for` resolves for the two records.

  The store does not change while a question is answered, so that the engine's
  two caches hold what another read would return, and are left out.  The
  handlers of the other intents are a parameter of `answer`.
-/

namespace Lyte

open Transact Paging Search Tally

/-! ## §1. Answers. -/

structure Citation where
  citationId : PyStr
  title : PyStr
  sourceType : PyStr
  sourceRef : PyStr
  observedAt : PyStr
  truthLabel : PyStr
  evidenceReceiptIds : List PyStr

structure EnterpriseAnswer where
  question : PyStr
  intent : PyStr
  answer : Option PyStr
  truthLabel : PyStr
  citations : List Citation
  evidenceReceiptIds : List PyStr
  sourceEntities : List PyStr
  formulaIds : List PyStr
  limitations : List PyStr
  recommendedNextReview : Option PyStr
  confidence : PyFloat

/-- The binary64 constant 0.9. -/
def confidence90 : PyFloat := ⟨0x3FECCCCCCCCCCCCD⟩

/-- `_unavailable`. -/
def unavailableAnswer (question intent reason : PyStr) (missing : List PyStr) :
    EnterpriseAnswer where
  question := question
  intent := intent
  answer := none
  truthLabel := TruthLabel.unavailable.value
  citations := []
  evidenceReceiptIds := []
  sourceEntities := []
  formulaIds := []
  limitations := missing ++ [reason]
  recommendedNextReview := none
  confidence := ⟨0⟩

/-! ## §2. Questions. -/

/-- `needle in text`. -/
def containsText (needle : PyStr) : PyStr → Bool
  | [] => needle.isEmpty
  | c :: cs => needle.isPrefixOf (c :: cs) || containsText needle cs

/-- `re.sub(r"[^a-z0-9]+", " ", text)`; `gap` tells whether the last character was replaced. -/
def wordsOnly (gap : Bool) : PyStr → PyStr
  | [] => []
  | c :: cs =>
      if isLower c || isDigit c then c :: wordsOnly false cs
      else if gap then wordsOnly true cs
      else 32 :: wordsOnly true cs

inductive Intent where
  | postActionOutcome
  | evidenceAndFormulas
  | operatorReviewPriority
  | incidentDeploymentCorrelation
  | agentCostReliability
  | preJourneyChange
  | highestErrorBudgetBurn
  | checkoutRevenueRisk
  | unsupported
deriving DecidableEq

/-- `_intent`. -/
def intentOf (normalized : PyStr) : Intent :=
  let has (word : PyStr) : Bool := containsText word normalized
  if has (py "improved") && has (py "action") then .postActionOutcome
  else if has (py "evidence") && has (py "formula") then .evidenceAndFormulas
  else if has (py "review first") || has (py "operator review") then .operatorReviewPriority
  else if has (py "deployment") && has (py "incident") then .incidentDeploymentCorrelation
  else if has (py "agent") && (has (py "expensive") || has (py "unreliable")) then
    .agentCostReliability
  else if has (py "changed") && has (py "journey") then .preJourneyChange
  else if has (py "error budget") && has (py "service") then .highestErrorBudgetBurn
  else if has (py "checkout") && (has (py "revenue") || has (py "risk")) then .checkoutRevenueRisk
  else .unsupported

/-- `_clean_question`. -/
def cleanQuestion (rt : Builtins) (question : PyStr) : Except Exn (PyStr × PyStr) :=
  let clean := squeeze question
  if clean.isEmpty || 500 < clean.length then
    .error (.valueError (py "question must contain 1-500 characters"))
  else .ok (clean, strip (wordsOnly false (rt.lower clean)))

/-! ## §3. Rows. -/

/-- `row.body_json`, a column of dicts. -/
def OperationalRecord.body (r : OperationalRecord) : List (PyStr × Json) :=
  match r.bodyJson with
  | .dict fields => fields
  | _ => []

/-- `receipt.payload_json`, a column of dicts. -/
def ReceiptRecord.payload (r : ReceiptRecord) : List (PyStr × Json) :=
  match r.payloadJson with
  | .dict fields => fields
  | _ => []

/-- A column of lists of strings. -/
def columnTexts : Json → List PyStr
  | .list items => items.filterMap (fun item => match item with | .str s => some s | _ => none)
  | _ => []

/-- `row.evidence_refs`. -/
def OperationalRecord.refs (r : OperationalRecord) : List PyStr := columnTexts r.evidenceRefs

/-- `receipt.evidence_refs`. -/
def ReceiptRecord.refs (r : ReceiptRecord) : List PyStr := columnTexts r.evidenceRefs

/-- `_available` keeps these rows. -/
def OperationalRecord.available (r : OperationalRecord) : Bool :=
  [TruthLabel.measured, .reported, .modeled].any (fun l => l.value == r.truthLabel)

/-- `f"{row.entity_kind}:{row.entity_id}"`. -/
def OperationalRecord.sourceRef (r : OperationalRecord) : PyStr :=
  r.entityKind ++ [58] ++ r.entityId

/-- `_compatible_receipt`. -/
def compatibleReceipt (row : OperationalRecord) (receipt : ReceiptRecord) : Bool :=
  let accepted : List TruthLabel :=
    if row.truthLabel = TruthLabel.measured.value then [.measured]
    else if row.truthLabel = TruthLabel.reported.value then [.measured, .reported]
    else if row.truthLabel = TruthLabel.modeled.value then [.measured, .reported, .modeled]
    else []
  accepted.any (fun l => l.value == receipt.truthLabel)

/-- `re.sub(r"(?<!^)(?=[A-Z])", "_", kind).lower()`. -/
def sourceType (rt : Builtins) (kind : PyStr) : PyStr :=
  rt.lower (match kind with
    | [] => []
    | c :: cs => c :: cs.flatMap (fun c => if isUpper c then [95, c] else [c]))

/-! ## §4. Times. -/

section Times

variable (rt : Builtins)

/-- `t.astimezone(UTC)` of an aware time, in microseconds. -/
def toUtc (wall offset : Int) : Except Exn Int :=
  if 0 ≤ wall - offset ∧ wall - offset ≤ maxMicros then .ok (wall - offset)
  else .error .overflowError

/-- `_witness_time`: the conversion to UTC is outside of its `try`. -/
def witnessTime (value : Json) : Except Exn (Option Int) :=
  match value with
  | .str s =>
      match rt.fromisoformat s with
      | .error e => if e.isValueError || e = .typeError then .ok none else .error e
      | .ok t =>
          match t.offset with
          | none => .ok none
          | some offset => (toUtc t.wall offset).map some
  -- `fromisoformat` takes strings only
  | _ => .ok none

/-- `_parse_time` of a datetime: a naive one is in UTC. -/
def parseStamp (t : Stamp) : Except Exn Int :=
  match t.offset with
  | none => .ok t.wall
  | some offset => toUtc t.wall offset

/-- `_parse_time` of a JSON value. -/
def parseTime (value : Json) : Except Exn (Option Int) :=
  match value with
  | .str s =>
      match rt.fromisoformat (s.flatMap (fun c => if c = 90 then py "+00:00" else [c])) with
      | .error e => if e.isValueError then .ok none else .error e
      | .ok t => (parseStamp t).map some
  | _ => .ok none

/-- The loop of `_record_time` over the keys of a body. -/
def bodyTime (body : List (PyStr × Json)) : List PyStr → Except Exn (Option Int)
  | [] => .ok none
  | key :: keys => do
      let parsed ← parseTime rt (Json.get body key)
      match parsed with
      | some t => return some t
      | none => bodyTime body keys

/-- `_record_time(row) or _parse_time(row.created_at)`. -/
def observedTime (row : OperationalRecord) : Except Exn Int := do
  let found ← bodyTime rt row.body
    [py "at", py "deployed_at", py "started_at", py "observed_at", py "occurred_at"]
  match found with
  | some t => return t
  | none =>
      match row.observedAt with
      | some t => parseStamp t
      | none => parseStamp row.createdAt

end Times

/-! ## §5. Reads of the store. -/

/-- `get_receipt`. -/
def getReceipt (scope : Scope) (recordHash : PyStr) : StoreProg (Option ReceiptRecord) :=
  if !isSha256Hex recordHash then
    .raise (.valueError (py "record_hash must be a lowercase SHA-256 digest"))
  else readSession do
    assertScope scope
    Body.select (fun db => findReceipt db scope recordHash)

/-- The receipts of a scope, in the order of their chain. -/
def chainedReceipts (db : Db) (scope : Scope) : List ReceiptRecord :=
  (db.receipts.filter (fun r => r.inScope scope)).insertionSort
    (fun a b => a.sequence ≤ b.sequence)

/-- `list_receipts`. -/
def listReceipts (scope : Scope) (limit offset : Int) : StoreProg (List ReceiptRecord) :=
  if ¬ (1 ≤ limit ∧ limit ≤ 500) then
    .raise (.valueError (py "limit must be between 1 and 500"))
  else if ¬ (0 ≤ offset ∧ offset ≤ 100000) then
    .raise (.valueError (py "offset must be between 0 and 100000"))
  else readSession do
    assertScope scope
    Body.select (fun db => portion (chainedReceipts db scope) offset.toNat limit.toNat)

/-- What a call of the store returns. -/
def Db.read {α : Type} (d : Dialect) (db : Db) (p : StoreProg α) : Except Exn α :=
  (p.exec (engine d) (.idle db [])).1

/-! ## §6. The engine. -/

section Engine

variable (rt : Builtins) (c : Collation) (d : Dialect) (db : Db) (scope : Scope)

/-- `_load`. -/
def loadRecords (kind : OperationalEntityKind) : Except Exn (List OperationalRecord) := do
  let rows ← db.read d (listOperational c scope (some kind) 50 0)
  return rows.filter OperationalRecord.available

/-- The receipts that the digests among these references name. -/
def receiptsOfRefs : List PyStr → List (PyStr × ReceiptRecord) →
    Except Exn (List (PyStr × ReceiptRecord))
  | [], receipts => .ok receipts
  | ref :: refs, receipts =>
      if isSha256Hex ref then do
        let receipt ← db.read d (getReceipt scope ref)
        match receipt with
        | some r => receiptsOfRefs refs (upsert receipts r.recordHash (fun _ => r))
        | none => receiptsOfRefs refs receipts
      else receiptsOfRefs refs receipts

/-- `by_identity.values()`. -/
def byIdentity (rows : List OperationalRecord) : List OperationalRecord :=
  (keyed OperationalRecord.entity [] rows).map Prod.snd

/-- The references of the rows that are looked at. -/
def citedRefs (rows : List OperationalRecord) : List PyStr :=
  (byIdentity rows).flatMap (fun row => row.refs.take 20)

/-- `unresolved_refs`. -/
def unresolvedRefs (rows : List OperationalRecord) : List PyStr :=
  (citedRefs rows).filter (fun ref => !isSha256Hex ref)

/-- `unresolved_refs.intersection(receipt.evidence_refs)`. -/
def sharesRef (unresolved : List PyStr) (r : ReceiptRecord) : Bool :=
  unresolved.any (fun ref => r.refs.contains ref)

/-- `receipts` of `_receipts_for`. -/
def resolvedReceipts (rows : List OperationalRecord) :
    Except Exn (List (PyStr × ReceiptRecord)) := do
  let receipts ← receiptsOfRefs d db scope (citedRefs rows) []
  if (unresolvedRefs rows).isEmpty then return receipts
  let fallback ← db.read d (listReceipts scope 100 0)
  return keyed (fun r : ReceiptRecord => r.recordHash) receipts
    (fallback.filter (sharesRef (unresolvedRefs rows)))

/-- `sorted(values)`. -/
def sortedTexts (values : List PyStr) : List PyStr :=
  values.insertionSort (fun a b => strLe a b = true)

/-- The receipts that a row is cited with. -/
def rowReceipts (receipts : List (PyStr × ReceiptRecord)) (row : OperationalRecord) : List PyStr :=
  sortedTexts (((receipts.map Prod.snd).filter (fun r => compatibleReceipt row r &&
    (row.refs.contains r.recordHash || r.refs.any (fun ref => row.refs.contains ref)))).map
      (fun r => r.recordHash))

/-- The citation of a row, if it has receipts. -/
def citationOf (receipts : List (PyStr × ReceiptRecord)) (row : OperationalRecord) :
    Except Exn (Option Citation) :=
  if (rowReceipts receipts row).isEmpty then .ok none
  else do
    let observed ← observedTime rt row
    return some {
      citationId := row.recordHash
      title := row.name
      sourceType := sourceType rt row.entityKind
      sourceRef := row.sourceRef
      observedAt := isoText observed
      truthLabel := row.truthLabel
      evidenceReceiptIds := rowReceipts receipts row }

/-- `_receipts_for`. -/
def receiptsFor (rows : List OperationalRecord) : Except Exn (List Citation × List PyStr) := do
  let receipts ← resolvedReceipts d db scope rows
  if receipts.isEmpty then return ([], [])
  let citations ← (byIdentity rows).mapM (citationOf rt receipts)
  let citations := citations.reduceOption
  return (citations, sortedTexts (citations.flatMap Citation.evidenceReceiptIds).dedup)

/-- `source_ref.split(":", 1)`. -/
def splitRef (ref : PyStr) : PyStr × PyStr :=
  (ref.takeWhile (· != 58), (ref.dropWhile (· != 58)).drop 1)

/-- The truth labels of the indicators of a row. -/
def indicatorLabels (row : OperationalRecord) : List PyStr :=
  match Json.get row.body (py "indicators") with
  | .dict indicators => indicators.filterMap (fun i =>
      match i.2 with
      | .dict indicator =>
          match Json.get indicator (py "truth_label") with
          | .str label => some label
          | _ => none
      | _ => none)
  | _ => []

/-- `_truth` of rows that are not modeled. -/
def truthOf (rows : List OperationalRecord) : PyStr :=
  let labels := rows.map OperationalRecord.truthLabel ++ rows.flatMap indicatorLabels
  if labels.contains TruthLabel.modeled.value then TruthLabel.modeled.value
  else if labels.contains TruthLabel.reported.value then TruthLabel.reported.value
  else TruthLabel.measured.value

/-- `used_rows`. -/
def usedRows (rows : List OperationalRecord) (citations : List Citation) :
    List OperationalRecord :=
  rows.filter (fun row =>
    (citations.map (fun citation => splitRef citation.sourceRef)).contains row.entity)

/-- What `_answer` makes of its citations, for an answer without formulas. -/
def citedAnswer (question intent text : PyStr) (rows : List OperationalRecord)
    (limitations : List PyStr) (recommendedNextReview : Option PyStr) (confidence : PyFloat)
    (citations : List Citation) (receiptIds : List PyStr) : EnterpriseAnswer :=
  if citations.isEmpty || receiptIds.isEmpty then
    unavailableAnswer question intent
      (py "selected operational records are not bound to a persisted workspace receipt")
      [py "a receipt-linked evidence projection"]
  else if (usedRows rows citations).length ≠ rows.length then
    unavailableAnswer question intent
      (py "every selected operational input requires a compatible persisted workspace receipt")
      [py "complete receipt coverage for the selected evidence inputs"]
  else {
    question := question
    intent := intent
    answer := some text
    truthLabel := truthOf (usedRows rows citations)
    citations := citations
    evidenceReceiptIds := receiptIds
    sourceEntities := (usedRows rows citations).map OperationalRecord.sourceRef
    formulaIds := []
    limitations := limitations
    recommendedNextReview := recommendedNextReview
    confidence := confidence }

/-- `_answer`. -/
def answerFrom (question intent text : PyStr) (rows : List OperationalRecord)
    (limitations : List PyStr) (recommendedNextReview : Option PyStr) (confidence : PyFloat) :
    Except Exn EnterpriseAnswer := do
  let found ← receiptsFor rt d db scope rows
  return citedAnswer question intent text rows limitations recommendedNextReview confidence
    found.1 found.2

/-! ## §7. After an action. -/

/-- `value == text`. -/
def Json.isText (text : PyStr) : Json → Bool
  | .str s => s == text
  | _ => false

/-- The filter of `actions`, given the state of the row in upper case. -/
def executedAction (row : OperationalRecord) (state : PyStr) : Bool :=
  [py "EXECUTED", py "COMPLETED"].contains state &&
    (Json.get row.body (py "simulation")).isFalse && row.truthLabel == TruthLabel.measured.value

/-- The filter of `verifications`. -/
def verifiedOutcome (row : OperationalRecord) (state : PyStr) : Bool :=
  [py "VERIFIED", py "IMPROVED"].contains state &&
    (Json.get row.body (py "production_outcome_claimed")).isTrue &&
    row.truthLabel == TruthLabel.measured.value

/-- A filter on a row and its state. -/
def byState (keep : OperationalRecord → PyStr → Bool) (row : OperationalRecord) :
    Except Exn Bool := do
  let state ← rt.textOf row.body (py "state") []
  return keep row (rt.upper state)

/-- The digest that a body has under a key. -/
def digestAt (body : List (PyStr × Json)) (key : PyStr) : Option PyStr :=
  match Json.get body key with
  | .str digest => if isSha256Hex digest then some digest else none
  | _ => none

/-- The receipt is of the execution of the action. -/
def executes (action : OperationalRecord) (executionHash : PyStr) (execution : ReceiptRecord) :
    Bool :=
  execution.truthLabel == TruthLabel.measured.value && execution.kind == py "action.executed" &&
    execution.subjectId == action.entityId && action.refs.contains executionHash &&
    Json.isText (py "EXECUTED") (Json.get execution.payload (py "state")) &&
    (Json.get execution.payload (py "simulation")).isFalse

/-- The verification is of the execution of the action. -/
def verifiesAction (action : OperationalRecord) (executionHash : PyStr)
    (verification : OperationalRecord) (outcomeHash : PyStr) : Bool :=
  Json.isText action.entityId (Json.get verification.body (py "action_request_id")) &&
    Json.isText executionHash (Json.get verification.body (py "execution_receipt_hash")) &&
    verification.refs.contains outcomeHash

/-- The receipt is of the outcome of the action. -/
def verifies (action : OperationalRecord) (executionHash : PyStr)
    (verification : OperationalRecord) (outcome : ReceiptRecord) : Bool :=
  outcome.truthLabel == TruthLabel.measured.value && outcome.kind == py "outcome.verified" &&
    outcome.subjectId == verification.entityId &&
    Json.isText action.entityId (Json.get outcome.payload (py "action_request_id")) &&
    Json.isText executionHash (Json.get outcome.payload (py "execution_receipt_hash")) &&
    (Json.get outcome.payload (py "production_outcome_claimed")).isTrue &&
    (Json.get outcome.payload (py "improved")).isTrue

/-- `executed_at <= window_start < window_end`. -/
def inWindow (executedAt : Int) (windowStart windowEnd : Option Int) : Bool :=
  match windowStart, windowEnd with
  | some windowStart, some windowEnd => executedAt ≤ windowStart && windowStart < windowEnd
  | _, _ => false

/-- One turn of the loop over `verifications`. -/
def outcomeOf (action : OperationalRecord) (executionHash : PyStr) (executedAt : Int)
    (verification : OperationalRecord) : Except Exn (Option OperationalRecord) :=
  match digestAt verification.body (py "outcome_receipt_hash") with
  | none => .ok none
  | some outcomeHash =>
      if !verifiesAction action executionHash verification outcomeHash then .ok none
      else do
        let outcome ← db.read d (getReceipt scope outcomeHash)
        match outcome with
        | none => return none
        | some outcome =>
            if !verifies action executionHash verification outcome then return none
            else do
              let windowStart ← witnessTime rt (Json.get outcome.payload (py "window_start"))
              let windowEnd ← witnessTime rt (Json.get outcome.payload (py "window_end"))
              return if inWindow executedAt windowStart windowEnd then some verification else none

/-- The loop over `verifications`, if there is a time of execution. -/
def verificationsSince (verifications : List OperationalRecord) (action : OperationalRecord)
    (executionHash : PyStr) (executedAt : Option Int) :
    Except Exn (Option (OperationalRecord × OperationalRecord)) :=
  match executedAt with
  | none => .ok none
  | some executedAt => do
      let verification ←
        firstOk (outcomeOf rt d db scope action executionHash executedAt) verifications
      return verification.map (fun v => (action, v))

/-- One turn of the loop over `actions`. -/
def pairOf (verifications : List OperationalRecord) (action : OperationalRecord) :
    Except Exn (Option (OperationalRecord × OperationalRecord)) :=
  match digestAt action.body (py "execution_receipt_hash") with
  | none => .ok none
  | some executionHash => do
      let execution ← db.read d (getReceipt scope executionHash)
      match execution with
      | none => return none
      | some execution =>
          if !executes action executionHash execution then return none
          else do
            let executedAt ← witnessTime rt (Json.get execution.payload (py "executed_at"))
            verificationsSince rt d db scope verifications action executionHash executedAt

/-- `summary`, or the name of the record. -/
def summaryOf (verification : OperationalRecord) : PyStr :=
  match Json.get verification.body (py "summary") with
  | .str summary => if (strip summary).isEmpty then verification.name else summary
  | _ => verification.name

/-- The answer where nothing was selected. -/
def noPairAnswer (question : PyStr) : EnterpriseAnswer :=
  unavailableAnswer question (py "post_action_outcome")
    (py "an improvement claim requires measured non-simulated execution and " ++
      py "outcome receipts linked to a subsequent verification window")
    [py "measured execution receipt", py "measured post-action outcome receipt",
      py "action-to-execution-to-outcome window link"]

/-- The answer about what was selected. -/
def pairAnswer (question : PyStr) (action verification : OperationalRecord) :
    Except Exn EnterpriseAnswer :=
  answerFrom rt d db scope question (py "post_action_outcome")
    (py "After recorded execution of " ++ action.name ++
      py ", measured outcome evidence reports: " ++ squeeze (summaryOf verification))
    [action, verification]
    [py "the statement is limited to the cited verification window",
      py "stored receipt evidence is not independent certification"]
    (some (py "Continue monitoring the verified outcome window.")) confidence90

/-- `_post_action_outcome`. -/
def postActionOutcome (question : PyStr) : Except Exn EnterpriseAnswer := do
  let rows ← loadRecords c d db scope .actionRequest
  let actions ← keepOk (byState rt executedAction) rows
  let rows ← loadRecords c d db scope .outcomeVerification
  let verifications ← keepOk (byState rt verifiedOutcome) rows
  let selected ← firstOk (pairOf rt d db scope verifications) actions
  match selected with
  | none => return noPairAnswer question
  | some (action, verification) => pairAnswer rt d db scope question action verification

/-- `answer`, with the handlers of the other intents. -/
def ask (others : Intent → PyStr → Except Exn EnterpriseAnswer) (question : PyStr) :
    Except Exn EnterpriseAnswer := do
  let (clean, normalized) ← cleanQuestion rt question
  match intentOf normalized with
  | .postActionOutcome => postActionOutcome rt c d db scope clean
  | .unsupported =>
      return unavailableAnswer clean (py "unsupported")
        (py "Ask Lyte supports only the documented deterministic question set")
        [py "a deterministic query definition for this question"]
  | intent => others intent clean

end Engine

end Lyte
