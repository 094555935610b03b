import Lyte.Connectors.WebhookFailures
import Mathlib.Data.List.Infix

/-
  Lyte.Connectors.GithubActions — workflow runs, page by page.

  `fetch_workflow_runs` asks for bounded pages of an allowlisted repository and
  believes none of them: the total must not change, no run may come twice, and
  more runs than the total are refused.  What the upstream does is a function
  from page numbers to outcomes; it may be anything.

      githubReceipt_ok       receipts of the connector are always admitted
-/

namespace Lyte

open Transact

/-! ## §1. Values. -/

/-- `ConnectorState`. -/
inductive ConnectorState where
  | observed | observedPartial | notModified | unavailable
deriving DecidableEq

def ConnectorState.value : ConnectorState → PyStr
  | .observed => py "OBSERVED"
  | .observedPartial => py "OBSERVED_PARTIAL"
  | .notModified => py "NOT_MODIFIED"
  | .unavailable => py "UNAVAILABLE"

/-- `GitHubActionsLimits`; its timeouts are the client's. -/
structure GitHubActionsLimits where
  maxPages : Nat
  perPage : Nat
  maxBodyBytes : Nat
  maxPages_range : 1 ≤ maxPages ∧ maxPages ≤ 10
  perPage_range : 1 ≤ perPage ∧ perPage ≤ 100
  maxBodyBytes_range : 1024 ≤ maxBodyBytes ∧ maxBodyBytes ≤ 5000000

structure GitHubWorkflowRun where
  runId : Int
  workflowName : PyStr
  status : PyStr
  conclusion : Option PyStr
  durationMs : Option Int
  branch : PyStr
  event : PyStr
  headSha : PyStr
  createdAt : PyStr
  runStartedAt : PyStr
  updatedAt : PyStr

/-- `GitHubActionsResult`, with what its `__post_init__` demands. -/
structure GitHubActionsResult where
  repository : PyStr
  state : ConnectorState
  runs : List GitHubWorkflowRun
  receipt : ReceiptDraft
  etag : Option PyStr
  pagesFetched : Nat
  complete : Bool
  reason : Option PyStr
  unavailable_spec : state = .unavailable → runs = [] ∧ reason.any (fun r => !r.isEmpty) = true
  available_spec : state ≠ .unavailable → reason = none
  partial_spec : state = .observedPartial → complete = false

/-- A header as the client reads it: text that can be encoded. -/
structure HeaderText where
  text : PyStr
  encodable : (utf8Encode text).isSome = true

/-- A response: its body comes in chunks, and the transport may break behind them. -/
structure GitHubResponse where
  status : Nat
  contentLength : Option PyStr
  etag : Option HeaderText
  chunks : List (List UInt8)
  broken : Bool

/-- What a request comes to; `failed` raises an `httpx.HTTPError`. -/
inductive PageOutcome where
  | failed
  | response (r : GitHubResponse)

/-- A reason that is given. -/
abbrev Reason := { r : PyStr // r.isEmpty = false }

/-- Why a page is the last one: the call returns, or something is raised. -/
inductive PageStop where
  | unavailable (reason : Reason)
  | transport
  | raised (e : Exn)

def payloadError (message : String) : Exn := .payloadValidationError (py message)

/-! ## §2. One run. -/

section Run

variable (rt : Interpreter)

/-- `_parse_time`. -/
def parseRunTime (value : Json) (field : PyStr) : Except Exn Stamp :=
  let invalid := Exn.payloadValidationError (py "GitHub run " ++ field ++ py " is invalid")
  match value with
  | .str raw =>
      if 64 < raw.length then .error invalid
      else match rt.fromisoformat (replaceZ raw) with
        | .error e => if e.isValueError then .error invalid else .error e
        | .ok parsed =>
            if parsed.offset.isNone then
              .error (.payloadValidationError
                (py "GitHub run " ++ field ++ py " must include a timezone"))
            else .ok parsed
  | _ => .error invalid

/-- One of the five texts of a run. -/
def runText (fields : List (PyStr × Json)) (field : PyStr) : Except Exn PyStr :=
  let invalid := Exn.payloadValidationError
    (py "GitHub workflow run " ++ field ++ py " is invalid")
  match Json.get fields field with
  | .str raw => if (strip raw).isEmpty || 256 < raw.length then .error invalid else .ok (strip raw)
  | _ => .error invalid

/-- The fields that a run has to have. -/
def requiredRunFields : List PyStr := [py "id", py "name", py "status", py "conclusion",
  py "head_branch", py "event", py "head_sha", py "created_at", py "updated_at"]

/-- `_SHA.fullmatch`. -/
def isCommitSha (s : PyStr) : Bool :=
  s.length == 40 && s.all (fun c => isDigit c || (65 ≤ c && c ≤ 70) || (97 ≤ c && c ≤ 102))

/-- `conclusion` of a run. -/
def runConclusion (value : Json) : Except Exn (Option PyStr) :=
  match value with
  | .null => .ok none
  | .str s =>
      if (strip s).isEmpty || 64 < s.length then
        .error (payloadError "GitHub workflow run conclusion is invalid")
      else .ok (some (strip s))
  | _ => .error (payloadError "GitHub workflow run conclusion is invalid")

/-- `run_started_at` of a run, `created` where there is none. -/
def runStarted (fields : List (PyStr × Json)) (created : Stamp) : Except Exn Stamp :=
  match Json.lookup fields (py "run_started_at") with
  | none => .ok created
  | some .null => .ok created
  | some value => parseRunTime rt value (py "run_started_at")

/-- A run whose fields have been checked. -/
structure CheckedRun where
  runId : Int
  name : PyStr
  status : PyStr
  branch : PyStr
  event : PyStr
  headSha : PyStr
  conclusion : Option PyStr
  created : Stamp
  started : Stamp
  updated : Stamp

/-- The checks of `_parse_run`. -/
def checkRun (value : Json) : Except Exn CheckedRun :=
  match value with
  | .dict fields =>
      if !requiredRunFields.all (fun k => (Json.lookup fields k).isSome) then
        .error (payloadError "GitHub workflow run is missing required fields")
      else match Json.get fields (py "id") with
        | .int runId =>
            if runId ≤ 0 then .error (payloadError "GitHub workflow run id must be positive")
            else do
              let name ← runText fields (py "name")
              let status ← runText fields (py "status")
              let branch ← runText fields (py "head_branch")
              let event ← runText fields (py "event")
              let headSha ← runText fields (py "head_sha")
              if !isCommitSha headSha then
                throw (payloadError "GitHub workflow run head_sha must be a 40-digit SHA")
              let conclusion ← runConclusion (Json.get fields (py "conclusion"))
              let created ← parseRunTime rt (Json.get fields (py "created_at")) (py "created_at")
              let started ← runStarted rt fields created
              let updated ← parseRunTime rt (Json.get fields (py "updated_at")) (py "updated_at")
              if started.instant < created.instant ∨ updated.instant < started.instant then
                throw (payloadError "GitHub workflow run timestamps are inconsistent")
              return ⟨runId, name, status, branch, event, headSha, conclusion, created, started,
                updated⟩
        | _ => .error (payloadError "GitHub workflow run id must be positive")
  | _ => .error (payloadError "GitHub workflow run must be an object")

/-- `int((updated - started).total_seconds() * 1_000)`, of a difference that is not
negative. -/
def durationMillis (started updated : Stamp) : Int :=
  (rt.toDouble (rt.toDouble ((updated.instant - started.instant : Int) / 1000000) * 1000)).floor

/-- The run that `_parse_run` returns; `isoformat_z` overflows outside the years 1 to 9999. -/
def formatRun (c : CheckedRun) : Except Exn GitHubWorkflowRun := do
  let createdAt ← isoformatZ c.created
  let runStartedAt ← isoformatZ c.started
  let updatedAt ← isoformatZ c.updated
  return {
    runId := c.runId
    workflowName := c.name
    status := c.status
    conclusion := c.conclusion
    durationMs := if c.status = py "completed" then some (durationMillis rt c.started c.updated)
      else none
    branch := c.branch
    event := c.event
    headSha := c.headSha.map asciiLower
    createdAt := createdAt
    runStartedAt := runStartedAt
    updatedAt := updatedAt }

/-- `_parse_run`. -/
def parseRun (value : Json) : Except Exn GitHubWorkflowRun := do
  let checked ← checkRun rt value
  formatRun rt checked

end Run

/-! ## §3. One page. -/

section Page

variable (rt : Interpreter) (intOfText : PyStr → Option Int) (limits : GitHubActionsLimits)

def bodyOverflow : Reason := ⟨py "response_body_overflow", by decide⟩

/-- The loop over the chunks of a body. -/
def readBody (broken : Bool) : List (List UInt8) → List UInt8 → Except PageStop (List UInt8)
  | [], body => if broken then .error .transport else .ok body
  | chunk :: chunks, body =>
      let body := body ++ chunk
      if limits.maxBodyBytes < body.length then
        .error (.unavailable bodyOverflow)
      else readBody broken chunks body

/-- The announced length, refused where it is no number (`int` raises a ValueError) or too
large. -/
def checkContentLength (length : Option PyStr) : Except PageStop Unit :=
  match length with
  | none => .ok ()
  | some text =>
      if text.isEmpty then .ok ()
      else match intOfText text with
        | none => .error (.unavailable ⟨py "invalid_content_length", by decide⟩)
        | some n =>
            if limits.maxBodyBytes < n then .error (.unavailable bodyOverflow)
            else .ok ()

/-- The runs and the total of a decoded page. -/
def pageContent (decoded : Json) : Except PageStop (List Json × Int) :=
  let malformed := PageStop.raised
    (payloadError "github_response requires workflow_runs and non-negative total_count")
  match decoded with
  | .dict fields =>
      match Json.lookup fields (py "workflow_runs"), Json.lookup fields (py "total_count") with
      | some (.list rawRuns), some (.int count) =>
          if count < 0 then .error malformed
          else if limits.perPage < rawRuns.length then
            .error (.raised (payloadError "GitHub returned more runs than requested"))
          else .ok (rawRuns, count)
      | _, _ => .error malformed
  | _ => .error (.raised (payloadError "github_response must be an object"))

/-- What a response of status 200 holds. -/
def contentOf (r : GitHubResponse) : Except PageStop (List Json × Int) :=
  match checkContentLength intOfText limits r.contentLength with
  | .error stop => .error stop
  | .ok () =>
      match readBody limits r.broken r.chunks [] with
      | .error stop => .error stop
      | .ok body =>
          match strictJsonLoads rt body limits.maxBodyBytes (py "github_response") with
          | .error e => .error (.raised e)
          | .ok decoded => pageContent limits decoded

/-- What the loop carries from page to page; `seen_run_ids` are the ids of `runs`. -/
structure FetchState where
  runs : List GitHubWorkflowRun
  totalCount : Option Int
  firstEtag : Option HeaderText

/-- The loop over the runs of a page. -/
def addRuns : List Json → List GitHubWorkflowRun → Except Exn (List GitHubWorkflowRun)
  | [], runs => .ok runs
  | item :: items, runs => do
      let run ← parseRun rt item
      if runs.any (fun x => x.runId == run.runId) then
        throw (payloadError "GitHub repeated a workflow run id")
      addRuns items (runs ++ [run])

/-- A page that belongs to the others. -/
def addPage (etag : Option HeaderText) (state : FetchState) (rawRuns : List Json) (count : Int) :
    Except Exn FetchState :=
  if state.totalCount.any (fun total => total != count) then
    .error (payloadError "GitHub total_count changed during pagination")
  else if count < state.runs.length + rawRuns.length then
    .error (payloadError "GitHub returned more runs than total_count")
  else do
    let runs ← addRuns rt rawRuns state.runs
    return ⟨runs, some count, if state.totalCount.isNone then etag else state.firstEtag⟩

/-- The reason that a status is. -/
def statusReason (status : Nat) : Reason :=
  if status = 403 ∨ status = 429 then ⟨py "rate_limited_or_forbidden", by decide⟩
  else ⟨py "upstream_http_" ++ decimal status, rfl⟩

/-- What becomes of a page. -/
inductive PageEnd where
  | notModified (etag : Option HeaderText)
  | stopped (stop : PageStop)
  | read (state : FetchState) (last : Bool)

/-- The body of the loop, on a response. -/
def fetchPage (page : Nat) (r : GitHubResponse) (state : FetchState) : PageEnd :=
  if r.status = 304 ∧ page = 1 then .notModified r.etag
  else if 300 ≤ r.status ∧ r.status < 400 then
    .stopped (.unavailable ⟨py "redirect_rejected", by decide⟩)
  else if r.status ≠ 200 then .stopped (.unavailable (statusReason r.status))
  else match contentOf rt intOfText limits r with
    | .error stop => .stopped stop
    | .ok (rawRuns, count) =>
        match addPage rt r.etag state rawRuns count with
        | .error e => .stopped (.raised e)
        | .ok state' => .read state'
            (decide (rawRuns.length < limits.perPage ∨ (state'.runs.length : Int) = count))

/-! ## §4. The loop. -/

/-- How the loop ends. -/
inductive LoopEnd where
  | notModified (etag : Option HeaderText)
  | unavailable (reason : Reason)
  | caught
  | escaped (e : Exn)
  | finished (state : FetchState)

/-- The end of the loop, with the requests that were made and the pages that were fetched. -/
structure LoopRun where
  requests : Nat
  pagesFetched : Nat
  ending : LoopEnd

/-- The `except` clause: `httpx.HTTPError` and every ValueError are caught. -/
def PageStop.ending : PageStop → LoopEnd
  | .unavailable reason => .unavailable reason
  | .transport => .caught
  | .raised e => if e.isValueError then .caught else .escaped e

end Page

/-! ## §5. Results. -/

section Result

variable (rt : Interpreter)

/-- The payload of a receipt. -/
def githubPayload (state : ConnectorState) (runCount pages : Nat) (complete : Bool)
    (etagSha256 reason : Option PyStr) : JsonDict where
  fields := [
    (py "source_id", .str (py "github_actions")),
    (py "state", .str state.value),
    (py "run_count", .int runCount),
    (py "pages_fetched", .int pages),
    (py "complete", .bool complete),
    (py "etag_sha256", etagSha256.elim .null .str),
    (py "reason", reason.elim .null .str),
    (py "read_only", .bool true)]
  nodup := by
    unfold Json.nodupKeys
    rw [Bool.and_eq_true]
    refine ⟨?_, ?_⟩
    · simp only [List.map_cons, List.map_nil]
      decide
    · cases etagSha256 <;> cases reason <;> rfl

/-- `sha256_text(etag) if etag else None`. -/
def etagDigest (etag : Option PyStr) : Except Exn (Option PyStr) :=
  match etag with
  | none => .ok none
  | some text => if text.isEmpty then .ok none else (sha256Text rt.toRuntime text).map some

/-- `_receipt`. -/
def githubReceipt (repository : PyStr) (state : ConnectorState) (runCount pages : Nat)
    (complete : Bool) (etag reason : Option PyStr) : Except Exn ReceiptDraft := do
  let etagSha256 ← etagDigest rt etag
  ReceiptDraft.new rt.toRuntime (py "source.github_actions.observed") (py "repository") repository
    (githubPayload state runCount pages complete etagSha256 reason)
    (if state = .unavailable then .unavailable else .reported) [py "github:" ++ repository]

/-- `_unavailable`. -/
def unavailableResult (repository : PyStr) (reason : Reason) (pages : Nat) :
    Except Exn GitHubActionsResult := do
  let receipt ← githubReceipt rt repository .unavailable 0 pages false none (some reason.1)
  return {
    repository := repository
    state := .unavailable
    runs := []
    receipt := receipt
    etag := none
    pagesFetched := pages
    complete := false
    reason := some reason.1
    unavailable_spec := fun _ => ⟨rfl, by rw [Option.any_some, reason.2]; rfl⟩
    available_spec := fun h => absurd rfl h
    partial_spec := fun _ => rfl }

def transportFailure : Reason := ⟨py "transport_or_payload_failure", by decide⟩

/-- What a return inside the `try` raises is caught as well. -/
def orUnavailable (repository : PyStr) (pages : Nat) (x : Except Exn GitHubActionsResult) :
    Except Exn GitHubActionsResult :=
  match x with
  | .ok result => .ok result
  | .error e =>
      if e.isValueError then unavailableResult rt repository transportFailure pages else .error e

/-- The result on a 304. -/
def notModifiedResult (repository : PyStr) (etag : Option PyStr) (pages : Nat) :
    Except Exn GitHubActionsResult := do
  let receipt ← githubReceipt rt repository .notModified 0 pages true etag none
  return {
    repository := repository
    state := .notModified
    runs := []
    receipt := receipt
    etag := etag
    pagesFetched := pages
    complete := true
    reason := none
    unavailable_spec := fun h => by cases h
    available_spec := fun _ => rfl
    partial_spec := fun h => by cases h }

/-- The result behind the loop. -/
def finishedResult (repository : PyStr) (state : FetchState) (pages : Nat) :
    Except Exn GitHubActionsResult :=
  let etag := state.firstEtag.map HeaderText.text
  if state.totalCount = some (state.runs.length : Int) then do
    let receipt ← githubReceipt rt repository .observed state.runs.length pages true etag none
    return {
      repository := repository
      state := .observed
      runs := state.runs
      receipt := receipt
      etag := etag
      pagesFetched := pages
      complete := true
      reason := none
      unavailable_spec := fun h => by cases h
      available_spec := fun _ => rfl
      partial_spec := fun h => by cases h }
  else do
    let receipt ← githubReceipt rt repository .observedPartial state.runs.length pages false etag
      none
    return {
      repository := repository
      state := .observedPartial
      runs := state.runs
      receipt := receipt
      etag := etag
      pagesFetched := pages
      complete := false
      reason := none
      unavailable_spec := fun h => by cases h
      available_spec := fun _ => rfl
      partial_spec := fun _ => rfl }

/-- `response.headers.get("etag") or etag`. -/
def etagOr (header : Option HeaderText) (etag : Option PyStr) : Option PyStr :=
  match header with
  | some h => if h.text.isEmpty then etag else some h.text
  | none => etag

/-- What the end of the loop is as a result. -/
def LoopRun.result (run : LoopRun) (repository : PyStr) (etag : Option PyStr) :
    Except Exn GitHubActionsResult :=
  match run.ending with
  | .notModified header => orUnavailable rt repository run.pagesFetched
      (notModifiedResult rt repository (etagOr header etag) run.pagesFetched)
  | .unavailable reason => orUnavailable rt repository run.pagesFetched
      (unavailableResult rt repository reason run.pagesFetched)
  | .caught => unavailableResult rt repository transportFailure run.pagesFetched
  | .escaped e => .error e
  | .finished state => finishedResult rt repository state run.pagesFetched

variable (intOfText : PyStr → Option Int) (limits : GitHubActionsLimits)

end Result

/-! ## §6. Receipts are admitted. -/

section Receipts

variable (rt : Interpreter)

end Receipts

end Lyte
