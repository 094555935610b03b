import Mathlib.Algebra.Order.Group.Unbundled.Abs
import Lyte.Connectors.Base
import Lyte.Domain.Receipts
import Lyte.Lib.Expiring

/-
  Lyte.Connectors.GenericWebhook — verification of governed events.

  `verify` checks a delivery in two parts around the replay registry: `checkDelivery`
  is everything before the claim (timestamp, nonce, signature, body, source)
  and touches no state; `complete` is what follows it.  The registry is
  `ReplayProtector`, a nonce table and an idempotency table whose entries
  expire.

  Time is kept as the binary64 number of seconds that `datetime.timestamp()`
  returns, so every comparison below is the source's comparison of floats.
-/

namespace Lyte

open Transact Expiring

/-! ## §1. The replay registry. -/

/-- `_SAFE_ID`. -/
def isSafeId (s : PyStr) : Bool := isSafeName 0 s

/-- `_NONCE`. -/
def isNonce (s : PyStr) : Bool := isSafeName 15 s

/-- `_SIGNATURE`. -/
def isSignature (s : PyStr) : Bool := (py "sha256=").isPrefixOf s && isSha256Hex (s.drop 7)

structure ReplayClaim where
  nonce : PyStr
  idempotency : IdempotencyClaim
  replayed : Bool
deriving DecidableEq

/-- `ReplayProtector`: what its constructor admits, and the two registries. -/
structure ReplayProtector where
  retentionSeconds : Nat
  maxEntries : Nat
  retention_range : 60 ≤ retentionSeconds ∧ retentionSeconds ≤ 86400
  entries_range : 100 ≤ maxEntries ∧ maxEntries ≤ 1000000
  nonces : Table PyStr Unit Rat
  idempotency : Table PyStr PyStr Rat

/-- `ReplayProtector(retention_seconds=…, max_entries=…)`. -/
def ReplayProtector.new (retentionSeconds maxEntries : Nat) : Except Exn ReplayProtector :=
  if h : 60 ≤ retentionSeconds ∧ retentionSeconds ≤ 86400 then
    if h' : 100 ≤ maxEntries ∧ maxEntries ≤ 1000000 then
      .ok ⟨retentionSeconds, maxEntries, h, h', .empty, .empty⟩
    else .error (.valueError (py "max_entries must be between 100 and 1000000"))
  else .error (.valueError (py "retention_seconds must be between 60 and 86400"))

/-- The registry of the application: `ReplayProtector()`. -/
def ReplayProtector.default : ReplayProtector :=
  ⟨900, 20000, by decide, by decide, .empty, .empty⟩

/-- Microseconds from 0001-01-01 to 1970-01-01. -/
def epochMicros : Int := 719162 * 86400000000

/-- `datetime.timestamp()` of an aware datetime. -/
def Interpreter.timestamp (rt : Interpreter) (s : Stamp) (offset : Int) : Rat :=
  rt.toDouble (mkRat (s.wall - offset - epochMicros) 1000000)

namespace ReplayProtector

/-- The registries without what has expired. -/
def prune (reg : ReplayProtector) (current : Rat) : ReplayProtector :=
  { reg with nonces := reg.nonces.prune current, idempotency := reg.idempotency.prune current }

/-- The body of `with self._lock`, behind the pruning. -/
def register (reg : ReplayProtector) (nonce : PyStr) (idempotency : IdempotencyClaim)
    (expires : Rat) : Except Exn ReplayClaim × ReplayProtector :=
  if (reg.nonces.get? nonce).isSome then
    (.error (.replayDetectedError (py "nonce has already been used")), reg)
  else if reg.maxEntries ≤ reg.nonces.size then
    (.error (.replayProtectionUnavailable (py "nonce registry is at its safe capacity")), reg)
  else
    let existing := reg.idempotency.get? idempotency.key
    if existing.any (fun e => e.1 != idempotency.payloadSha256) then
      (.error (.webhookIdempotencyConflict
        (py "idempotency key is already bound to a different payload")), reg)
    else if existing.isNone && reg.maxEntries ≤ reg.idempotency.size then
      (.error (.replayProtectionUnavailable
        (py "idempotency registry is at its safe capacity")), reg)
    else
      (.ok ⟨nonce, idempotency, existing.isSome⟩,
        { reg with
          nonces := reg.nonces.set nonce () expires
          idempotency := reg.idempotency.set idempotency.key idempotency.payloadSha256 expires })

/-- `ReplayProtector.claim`. -/
def claim (rt : Interpreter) (reg : ReplayProtector) (nonce idempotencyKey payloadSha256 : PyStr)
    (now : Stamp) : Except Exn ReplayClaim × ReplayProtector :=
  if !isNonce nonce then
    (.error (.payloadValidationError (py "nonce must contain 16-128 safe characters")), reg)
  else match now.offset with
    | none => (.error (.valueError (py "now must be timezone-aware")), reg)
    | some offset =>
      match IdempotencyClaim.new idempotencyKey payloadSha256 with
      | .error e => (.error e, reg)
      | .ok idempotency =>
          let current := rt.timestamp now offset
          (reg.prune current).register nonce idempotency
            (rt.toDouble (current + reg.retentionSeconds))

end ReplayProtector

/-! ## §2. Events. -/

/-- `GovernedEvent`. -/
structure GovernedEvent where
  schemaVersion : PyStr
  eventId : PyStr
  sourceId : PyStr
  eventType : PyStr
  subjectType : PyStr
  subjectId : PyStr
  occurredAt : Stamp
  truthLabel : TruthLabel
  attributes : List (PyStr × Json)
  evidenceRefs : List PyStr

/-- `fields` of `_parse_event`. -/
def eventFields : List PyStr :=
  [py "schema_version", py "event_id", py "source_id", py "event_type", py "subject_type",
    py "subject_id", py "occurred_at", py "truth_label", py "attributes", py "evidence_refs"]

/-- One of the five identifiers of an event. -/
def safeField (event : List (PyStr × Json)) (field : PyStr) : Except Exn PyStr :=
  match Json.get event field with
  | .str raw =>
      if isSafeId raw then .ok raw
      else .error (.payloadValidationError (py "governed_event." ++ field ++ py " is invalid"))
  | _ => .error (.payloadValidationError (py "governed_event." ++ field ++ py " is invalid"))

/-- `s.replace("Z", "+00:00")`. -/
def replaceZ (s : PyStr) : PyStr := s.flatMap (fun c => if c = 90 then py "+00:00" else [c])

/-- `occurred_at` of an event. -/
def parseOccurredAt (rt : Interpreter) (value : Json) : Except Exn Stamp :=
  match value with
  | .str raw =>
      if 64 < raw.length then
        .error (.payloadValidationError (py "governed_event.occurred_at is invalid"))
      else match rt.fromisoformat (replaceZ raw) with
        | .error e =>
            if e.isValueError then
              .error (.payloadValidationError (py "governed_event.occurred_at is invalid"))
            else .error e
        | .ok occurredAt =>
            if occurredAt.offset.isNone then
              .error (.payloadValidationError
                (py "governed_event.occurred_at requires a timezone"))
            else .ok occurredAt
  | _ => .error (.payloadValidationError (py "governed_event.occurred_at is invalid"))

/-- `truth_label` of an event. -/
def parseTruthLabel (value : Json) : Except Exn TruthLabel :=
  match value with
  | .str s =>
      match TruthLabel.ofValue? s with
      | none => .error (.payloadValidationError (py "governed_event.truth_label is invalid"))
      | some label =>
          if label = .unavailable ∨ label = .roadmap then
            .error (.payloadValidationError
              (py "governed_event with payload data cannot be UNAVAILABLE or ROADMAP"))
          else .ok label
  | _ => .error (.payloadValidationError (py "governed_event.truth_label is invalid"))

/-- `attributes` of an event. -/
def parseAttributes (rt : Interpreter) (value : Json) : Except Exn (List (PyStr × Json)) := do
  let attributes ← requireObject value (py "governed_event.attributes")
  if 64 < attributes.length then
    throw (.payloadValidationError (py "governed_event.attributes exceeds the limit of 64"))
  let guarded : Except Exn PyStr := do
    assertNoSensitiveKeys rt.toRuntime (.dict attributes) (py "governed_event.attributes")
    canonicalJson rt.toRuntime (.dict attributes)
  -- both raise ValueErrors only
  match guarded with
  | .ok _ => return attributes
  | .error _ => throw (.payloadValidationError
      (py "governed_event.attributes contains forbidden or invalid data"))

/-- The loop over `evidence_refs`, from an index on. -/
def parseRefs : Nat → List Json → Except Exn (List PyStr)
  | _, [] => .ok []
  | i, raw :: rest =>
      match raw with
      | .str s =>
          if (strip s).isEmpty ∨ 512 < s.length then
            .error (.payloadValidationError
              (py "governed_event.evidence_refs[" ++ decimal i ++ py "] is invalid"))
          else do
            let refs ← parseRefs (i + 1) rest
            return strip s :: refs
      | _ => .error (.payloadValidationError
          (py "governed_event.evidence_refs[" ++ decimal i ++ py "] is invalid"))

/-- `event["schema_version"] == "lyte.event.v1"`. -/
def hasSchemaVersion (event : List (PyStr × Json)) : Bool :=
  (Json.get event (py "schema_version")).pyEq (.str (py "lyte.event.v1"))

/-- `_parse_event`. -/
def parseEvent (rt : Interpreter) (value : Json) : Except Exn GovernedEvent := do
  let event ← requireObject value (py "governed_event")
  requireFields event (py "governed_event") eventFields eventFields
  if !hasSchemaVersion event then
    throw (.payloadValidationError (py "governed_event.schema_version must be lyte.event.v1"))
  let eventId ← safeField event (py "event_id")
  let sourceId ← safeField event (py "source_id")
  let eventType ← safeField event (py "event_type")
  let subjectType ← safeField event (py "subject_type")
  let subjectId ← safeField event (py "subject_id")
  let occurredAt ← parseOccurredAt rt (Json.get event (py "occurred_at"))
  let truthLabel ← parseTruthLabel (Json.get event (py "truth_label"))
  let attributes ← parseAttributes rt (Json.get event (py "attributes"))
  let refsRaw ← requireList (Json.get event (py "evidence_refs"))
    (py "governed_event.evidence_refs") 32
  let refs ← parseRefs 0 refsRaw
  return {
    schemaVersion := py "lyte.event.v1"
    eventId := eventId
    sourceId := sourceId
    eventType := eventType
    subjectType := subjectType
    subjectId := subjectId
    occurredAt := occurredAt
    truthLabel := truthLabel
    attributes := attributes
    evidenceRefs := fromkeys refs }

/-! ## §3. Deliveries. -/

/-- The arguments of `GovernedEventVerifier.verify`. -/
structure Delivery where
  body : List UInt8
  scope : Scope
  signature : Option PyStr
  timestamp : PyStr
  nonce : PyStr
  idempotencyKey : PyStr
  now : Stamp
  now_range : now.InRange

/-- `GovernedEventVerifier`, as its constructor admits it. -/
structure GovernedEventVerifier where
  allowedSources : List PyStr
  secret : Option (List UInt8)
  allowUnsigned : Bool
  maxBodyBytes : Nat
  maxTimestampSkewSeconds : Nat
  sources_safe : allowedSources ≠ [] ∧ allowedSources.all isSafeId = true
  secret_length : ∀ key, secret = some key → 32 ≤ key.length
  secret_or_unsigned : secret = none → allowUnsigned = true
  body_range : 1024 ≤ maxBodyBytes ∧ maxBodyBytes ≤ 2000000
  skew_range : 30 ≤ maxTimestampSkewSeconds ∧ maxTimestampSkewSeconds ≤ 3600

/-- `GovernedEventVerifier(…)`. -/
def GovernedEventVerifier.new (allowedSources : List PyStr) (secret : Option (List UInt8))
    (maxBodyBytes maxTimestampSkewSeconds : Nat) (allowUnsigned : Bool) :
    Except Exn GovernedEventVerifier :=
  let sources := fromkeys (allowedSources.map strip)
  if hs : sources ≠ [] ∧ sources.all isSafeId = true then
    if hk : ∀ key, secret = some key → 32 ≤ key.length then
      if hu : secret = none → allowUnsigned = true then
        if hb : 1024 ≤ maxBodyBytes ∧ maxBodyBytes ≤ 2000000 then
          if ht : 30 ≤ maxTimestampSkewSeconds ∧ maxTimestampSkewSeconds ≤ 3600 then
            .ok ⟨sources, secret, allowUnsigned, maxBodyBytes, maxTimestampSkewSeconds,
              hs, hk, hu, hb, ht⟩
          else .error (.valueError (py "max_timestamp_skew_seconds must be between 30 and 3600"))
        else .error (.valueError (py "max_body_bytes must be between 1024 and 2000000"))
      else .error (.valueError (py "an HMAC secret is required unless unsigned mode is explicit"))
    else .error (.valueError (py "HMAC secret must contain at least 32 bytes"))
  else .error (.valueError (py "allowed_sources must contain valid source identifiers"))

/-- `str.encode("ascii")`. -/
def asciiEncode (s : PyStr) : Except Exn (List UInt8) :=
  if isAscii s then .ok (s.map Nat.toUInt8) else .error .unicodeEncodeError

section Verify

variable (rt : Interpreter)

/-- `sign_governed_event`. -/
def signGovernedEvent (secret : List UInt8) (timestamp nonce : PyStr) (body : List UInt8) :
    Except Exn PyStr := do
  if secret.length < 32 then
    throw (.valueError (py "HMAC secret must contain at least 32 bytes"))
  let timestamp ← asciiEncode timestamp
  let nonce ← asciiEncode nonce
  return py "sha256=" ++ rt.hmacSha256 secret (timestamp ++ [46] ++ nonce ++ [46] ++ body)

/-- `float(n)` of an int that is not negative, as arithmetic with a float
converts it. -/
def floatOfInt (n : Int) : Except Exn Rat :=
  if 2 ^ 1024 - 2 ^ 970 ≤ n then .error .overflowError else .ok (rt.toDouble n)

/-- The timestamp checks of `verify`. -/
def checkTimestamp (v : GovernedEventVerifier) (timestamp : PyStr) (current : Rat) :
    Except Exn Unit :=
  match rt.intOfStr timestamp with
  | none => .error (.timestampSkewError (py "signature timestamp must be Unix seconds"))
  | some seconds =>
      if decimalInt seconds ≠ timestamp ∨ seconds < 0 then
        .error (.timestampSkewError (py "signature timestamp must be canonical Unix seconds"))
      else do
        let signedAt ← floatOfInt rt seconds
        if (v.maxTimestampSkewSeconds : Rat) < |rt.toDouble (current - signedAt)| then
          throw (.timestampSkewError
            (py "signature timestamp is outside the permitted skew"))
        return ()

/-- The signature checks of `verify`; returns `signature_verified`. -/
def checkSignature (v : GovernedEventVerifier) (d : Delivery) : Except Exn Bool :=
  match v.secret with
  | some secret =>
      match d.signature with
      | none => .error (.signatureVerificationError (py "HMAC signature is missing or malformed"))
      | some signature =>
          if !isSignature signature then
            .error (.signatureVerificationError (py "HMAC signature is missing or malformed"))
          else do
            let expected ← signGovernedEvent rt secret d.timestamp d.nonce d.body
            if signature ≠ expected then
              throw (.signatureVerificationError (py "HMAC signature verification failed"))
            return true
  | none =>
      if v.allowUnsigned then .ok false
      else .error (.signatureVerificationError (py "HMAC verification is unavailable"))

/-- What `verify` knows when it turns to the registry. -/
structure Admission where
  event : GovernedEvent
  signatureVerified : Bool
  payloadSha256 : PyStr

/-- `verify` up to the claim. -/
def checkDelivery (v : GovernedEventVerifier) (d : Delivery) : Except Exn Admission :=
  match d.now.offset with
  | none => .error (.valueError (py "now must be timezone-aware"))
  | some offset => do
      checkTimestamp rt v d.timestamp (rt.timestamp d.now offset)
      if !isNonce d.nonce then
        throw (.payloadValidationError (py "nonce must contain 16-128 safe characters"))
      let signatureVerified ← checkSignature rt v d
      let decoded ← strictJsonLoads rt d.body v.maxBodyBytes (py "governed_event")
      let event ← parseEvent rt decoded
      if !v.allowedSources.contains event.sourceId then
        throw (.governedEventError (py "event source is not in the code-defined allowlist"))
      return ⟨event, signatureVerified, rt.sha256 d.body⟩

/-- The payload of the receipt. -/
def verifiedPayload (scope : Scope) (event : GovernedEvent) (occurredAt : PyStr)
    (signatureVerified replayed : Bool) (payloadSha256 keySha256 : PyStr) : JsonDict where
  fields := [
    (py "tenant_id", .str scope.tenantId.text),
    (py "workspace_id", .str scope.workspaceId.text),
    (py "event_id", .str event.eventId),
    (py "source_id", .str event.sourceId),
    (py "event_type", .str event.eventType),
    (py "occurred_at", .str occurredAt),
    (py "signature_verified", .bool signatureVerified),
    (py "unsigned_mode", .bool (!signatureVerified)),
    (py "replayed", .bool replayed),
    (py "payload_sha256", .str payloadSha256),
    (py "idempotency_key_sha256", .str keySha256)]
  nodup := by
    simp only [Json.nodupKeys, Json.nodupKeysFields, Bool.and_true]
    rfl

/-- The receipt that `verify` drafts behind the claim. -/
def draftReceipt (d : Delivery) (a : Admission) (claim : ReplayClaim) : Except Exn ReceiptDraft := do
  let occurredAt ← isoformatZ a.event.occurredAt
  let keySha256 ← sha256Text rt.toRuntime d.idempotencyKey
  ReceiptDraft.new rt.toRuntime (py "ingest.governed_event.verified") a.event.subjectType
    a.event.subjectId
    (verifiedPayload d.scope a.event occurredAt a.signatureVerified claim.replayed a.payloadSha256
      keySha256)
    a.event.truthLabel a.event.evidenceRefs

/-- `VerifiedGovernedEvent`. -/
structure VerifiedGovernedEvent where
  scope : Scope
  event : GovernedEvent
  replayClaim : ReplayClaim
  signatureVerified : Bool
  payloadSha256 : PyStr
  receipt : ReceiptDraft

/-- `verify` behind the claim. -/
def complete (d : Delivery) (a : Admission) (claim : ReplayClaim) :
    Except Exn VerifiedGovernedEvent := do
  let receipt ← draftReceipt rt d a claim
  return ⟨d.scope, a.event, claim, a.signatureVerified, a.payloadSha256, receipt⟩

/-- `GovernedEventVerifier.verify` over the registry it shares. -/
def verify (v : GovernedEventVerifier) (reg : ReplayProtector) (d : Delivery) :
    Except Exn VerifiedGovernedEvent × ReplayProtector :=
  match checkDelivery rt v d with
  | .error e => (.error e, reg)
  | .ok a =>
      match reg.claim rt d.nonce d.idempotencyKey a.payloadSha256 d.now with
      | (.error e, reg') => (.error e, reg')
      | (.ok claim, reg') => (complete rt d a claim, reg')

end Verify

end Lyte
