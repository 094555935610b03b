import Lyte.Connectors.WebhookReplay

/-
  Lyte.Connectors.WebhookFailures — what a failed verification leaves behind.

  Up to the claim nothing is written, and a claim that is refused only drops
  expired entries, which no later delivery sees (`verify_congr`).  What goes
  wrong is an error that no `except` clause of the caller names: a clock reading
  without offset, a timestamp beyond the floats, and behind the claim a subject
  type that is no name or an event time without a UTC datetime.

      verify_fails_cleanly    exactly then.
-/

namespace Lyte

open Transact Expiring

/-! ## §1. What a later delivery sees. -/

/-- The time at which a delivery is judged; a naive clock reading gives none. -/
def Delivery.current? (rt : Interpreter) (d : Delivery) : Option Rat :=
  d.now.offset.map (rt.timestamp d.now)

theorem ReplayProtector.prune_prune {current later : Rat} (h : current ≤ later)
    (reg : ReplayProtector) : (reg.prune current).prune later = reg.prune later := by
  unfold prune
  simp only [Table.prune_prune h]

theorem ReplayProtector.prune_congr {current later : Rat} {reg reg' : ReplayProtector}
    (h : current ≤ later) (heq : reg.prune current = reg'.prune current) :
    reg.prune later = reg'.prune later := by
  rw [← prune_prune h reg, heq, prune_prune h reg']

/-- **A delivery is judged by the live entries.** -/
theorem verify_congr (rt : Interpreter) (v : GovernedEventVerifier) {reg reg' : ReplayProtector}
    (d : Delivery)
    (h : ∀ current, d.current? rt = some current → reg.prune current = reg'.prune current) :
    (verify rt v reg d).1 = (verify rt v reg' d).1 := by
  unfold verify
  cases hchecked : checkDelivery rt v d with
  | error e => rfl
  | ok a =>
    obtain ⟨offset, hoff, ha⟩ := (checkDelivery_iff rt v d a).mp hchecked
    have hcur : d.current? rt = some (rt.timestamp d.now offset) := by
      unfold Delivery.current?
      rw [hoff]
      rfl
    have hprune := h _ hcur
    have hret := congrArg ReplayProtector.retentionSeconds hprune
    change reg.retentionSeconds = reg'.retentionSeconds at hret
    simp only
    rw [ReplayProtector.claim_eq rt reg ha.nonce hoff, ReplayProtector.claim_eq rt reg' ha.nonce hoff,
      hprune, hret]
    cases IdempotencyClaim.new d.idempotencyKey a.payloadSha256 with
    | error e => rfl
    | ok idempotency => rfl

/-! ## §2. Errors. -/

/-- The exceptions that the module declares. -/
def Exn.isDeclared (e : Exn) : Bool := e.isGovernedEventError || e.isPayloadValidationError

theorem Exn.isDeclared_of_payload {e : Exn} (h : e.isPayloadValidationError = true) :
    e.isDeclared = true := by
  rw [Exn.isDeclared, h, Bool.or_true]

/-- A computation that fails with a declared exception only. -/
abbrev Declares {α : Type} (x : Except Exn α) : Prop := Raises (fun e => e.isDeclared = true) x

theorem Refuses.declares {α : Type} {x : Except Exn α} (h : Refuses x) : Declares x :=
  Raises.imp h (fun _ => Exn.isDeclared_of_payload)

theorem safeField_refuses (event : List (PyStr × Json)) (field : PyStr) :
    Refuses (safeField event field) := by
  unfold safeField
  split
  · split
    · exact raises_ok _
    · exact raises_error rfl
  · exact raises_error rfl

theorem parseOccurredAt_refuses (rt : Interpreter) (value : Json) :
    Refuses (parseOccurredAt rt value) := by
  unfold parseOccurredAt
  split
  · split
    · exact raises_error rfl
    split
    · next e he =>
      rw [rt.fromisoformat_fails _ e he]
      exact raises_error rfl
    · split
      · exact raises_error rfl
      · exact raises_ok _
  · exact raises_error rfl

theorem parseTruthLabel_refuses (value : Json) : Refuses (parseTruthLabel value) := by
  unfold parseTruthLabel
  split
  · split
    · exact raises_error rfl
    · split
      · exact raises_error rfl
      · exact raises_ok _
  · exact raises_error rfl

theorem parseAttributes_refuses (rt : Interpreter) (value : Json) :
    Refuses (parseAttributes rt value) := by
  refine (requireObject_refuses _ _).bind (fun attributes => ?_)
  refine raises_guard rfl ?_
  simp only
  split
  · exact raises_ok _
  · exact raises_error rfl

theorem parseRefs_refuses (i : Nat) (refs : List Json) : Refuses (parseRefs i refs) := by
  induction refs generalizing i with
  | nil => exact raises_ok _
  | cons raw refs ih =>
    unfold parseRefs
    split
    · split
      · exact raises_error rfl
      · exact (ih (i + 1)).bind (fun _ => raises_ok _)
    · exact raises_error rfl

/-- **A body that is no event** is refused with a PayloadValidationError. -/
theorem parseEvent_refuses (rt : Interpreter) (value : Json) : Refuses (parseEvent rt value) := by
  refine (requireObject_refuses _ _).bind (fun event => ?_)
  refine (requireFields_refuses _ _ _ _).bind (fun _ => ?_)
  refine raises_guard rfl ?_
  refine (safeField_refuses _ _).bind (fun _ => ?_)
  refine (safeField_refuses _ _).bind (fun _ => ?_)
  refine (safeField_refuses _ _).bind (fun _ => ?_)
  refine (safeField_refuses _ _).bind (fun _ => ?_)
  refine (safeField_refuses _ _).bind (fun _ => ?_)
  refine (parseOccurredAt_refuses _ _).bind (fun _ => ?_)
  refine (parseTruthLabel_refuses _).bind (fun _ => ?_)
  refine (parseAttributes_refuses _ _).bind (fun _ => ?_)
  refine (requireList_refuses _ _ _).bind (fun _ => ?_)
  exact (parseRefs_refuses _ _).bind (fun _ => raises_ok _)

theorem isAscii_safe {least : Nat} {s : PyStr} (h : isSafeName least s = true) :
    isAscii s = true :=
  List.all_eq_true.mpr (fun c hc => decide_eq_true (isSafeChar_ascii (isSafeName_chars h c hc)))

theorem asciiEncode_ok {s : PyStr} (h : isAscii s = true) :
    asciiEncode s = .ok (s.map Nat.toUInt8) := by
  unfold asciiEncode
  rw [if_pos h]

theorem checkSignature_declares (rt : Interpreter) (v : GovernedEventVerifier) (d : Delivery)
    (htime : isAscii d.timestamp = true) (hnonce : isNonce d.nonce = true) :
    Declares (checkSignature rt v d) := by
  unfold checkSignature
  split
  · next secret hsecret =>
    split
    · exact raises_error rfl
    split
    · exact raises_error rfl
    · have hlen : ¬ secret.length < 32 := Nat.not_lt.mpr (v.secret_length secret hsecret)
      have hsign : Declares (signGovernedEvent rt secret d.timestamp d.nonce d.body) := by
        unfold signGovernedEvent
        rw [if_neg hlen, asciiEncode_ok htime, asciiEncode_ok (isAscii_safe hnonce)]
        exact raises_ok _
      exact hsign.bind (fun _ => raises_guard rfl (raises_ok _))
  · split
    · exact raises_ok _
    · exact raises_error rfl

/-- A timestamp that no float holds. -/
def Oversized (rt : Interpreter) (timestamp : PyStr) : Prop :=
  ∃ n, rt.intOfStr timestamp = some n ∧ decimalInt n = timestamp ∧ 2 ^ 1024 - 2 ^ 970 ≤ n

theorem checkTimestamp_declares {rt : Interpreter} (v : GovernedEventVerifier) {timestamp : PyStr}
    (current : Rat) (h : ¬ Oversized rt timestamp) :
    Declares (checkTimestamp rt v timestamp current) := by
  unfold checkTimestamp
  split
  · exact raises_error rfl
  · next n hn =>
    split
    · exact raises_error rfl
    · next hcanon =>
      have heq : decimalInt n = timestamp := by
        by_contra hne
        exact hcanon (.inl hne)
      have hsmall : ¬ 2 ^ 1024 - 2 ^ 970 ≤ n := fun hbig => h ⟨n, hn, heq, hbig⟩
      unfold floatOfInt
      rw [if_neg hsmall]
      exact (raises_ok _).bind (fun _ => raises_guard rfl (raises_ok _))

theorem checkTimestamp_oversized {rt : Interpreter} (v : GovernedEventVerifier) {timestamp : PyStr}
    (current : Rat) (h : Oversized rt timestamp) :
    checkTimestamp rt v timestamp current = .error .overflowError := by
  obtain ⟨n, hn, heq, hbig⟩ := h
  have hpos : (0 : Int) ≤ 2 ^ 1024 - 2 ^ 970 :=
    Int.sub_nonneg_of_le (pow_le_pow_right₀ (by decide) (by decide))
  have hcanon : ¬ (decimalInt n ≠ timestamp ∨ n < 0) := by
    rintro (hne | hneg)
    · exact hne heq
    · exact absurd (Int.le_trans hpos hbig) (Int.not_le.mpr hneg)
  unfold checkTimestamp
  rw [hn]
  simp only [if_neg hcanon, floatOfInt, if_pos hbig, bind, Except.bind]

theorem checkDelivery_declares {rt : Interpreter} {v : GovernedEventVerifier} {d : Delivery} {offset : Int}
    (hnow : d.now.offset = some offset) (hsmall : ¬ Oversized rt d.timestamp) :
    Declares (checkDelivery rt v d) := by
  unfold checkDelivery
  rw [hnow]
  refine (checkTimestamp_declares v (rt.timestamp d.now offset) hsmall).bind_of_ok
    (fun _ hcheck => ?_)
  obtain ⟨n, _, heq, hpos, _⟩ := checkTimestamp_ok hcheck
  have hascii : isAscii d.timestamp = true := by
    rw [← heq]
    refine List.all_eq_true.mpr (fun c hc => decide_eq_true ?_)
    have := timestamp_digits hpos c hc
    omega
  refine raises_guard_of rfl (fun hnonce => ?_)
  have hnonce' : isNonce d.nonce = true := by simpa using hnonce
  refine (checkSignature_declares rt v d hascii hnonce').bind (fun _ => ?_)
  refine (strictJsonLoads_refuses rt _ _ _).declares.bind (fun _ => ?_)
  refine (parseEvent_refuses rt _).declares.bind (fun _ => ?_)
  exact raises_guard rfl (raises_ok _)

/-! ## §3. Behind the claim. -/

/-- A datetime that `isoformat_z` writes: its instant has a UTC datetime. -/
def Stamp.HasUtc (s : Stamp) : Prop :=
  ∀ o, s.offset = some o → 0 ≤ s.wall - o ∧ s.wall - o ≤ maxMicros

theorem isSpaceChar_safe {c : Nat} (h : isSafeChar c = true) : isSpaceChar c = false := by
  have hascii := isSafeChar_ascii h
  have hne : ∀ n, isSafeChar n = false → c ≠ n := by
    rintro n hn rfl
    rw [hn] at h
    cases h
  by_contra hspace
  rw [Bool.not_eq_false] at hspace
  have hrange : (9 ≤ c ∧ c ≤ 13) ∨ (28 ≤ c ∧ c ≤ 32) := by
    simp only [isSpaceChar, Bool.or_eq_true, Bool.and_eq_true, decide_eq_true_eq, beq_iff_eq]
      at hspace
    omega
  simp only [isSafeChar, isAlnum, isUpper, isLower, isDigit, Bool.or_eq_true, Bool.and_eq_true,
    decide_eq_true_eq, beq_iff_eq] at h
  omega

theorem sha256Text_ascii (rt : Runtime) {s : PyStr} (h : isAscii s = true) :
    ∃ digest, sha256Text rt s = .ok digest := by
  have hnone : s.any isSurrogate = false := by
    rw [List.any_eq_false]
    intro c hc
    have hlt := of_decide_eq_true (List.all_eq_true.mp h c hc)
    simp only [isSurrogate, Bool.and_eq_true, decide_eq_true_eq]
    omega
  unfold sha256Text utf8Encode
  rw [hnone]
  exact ⟨_, rfl⟩

/-- The receipt's fields are plain, whatever the event. -/
theorem verifiedPayload_plain (scope : Scope) (event : GovernedEvent) (occurredAt : PyStr)
    (signatureVerified replayed : Bool) (payloadSha256 keySha256 : PyStr) :
    ((verifiedPayload scope event occurredAt signatureVerified replayed payloadSha256
      keySha256).fields.map Prod.fst).all isPlainKey = true ∧
    ((verifiedPayload scope event occurredAt signatureVerified replayed payloadSha256
      keySha256).fields.map Prod.snd).all isPlainValue = true := by
  constructor
  · show [py "tenant_id", py "workspace_id", py "event_id", py "source_id", py "event_type",
      py "occurred_at", py "signature_verified", py "unsigned_mode", py "replayed",
      py "payload_sha256", py "idempotency_key_sha256"].all isPlainKey = true
    decide +kernel
  · rfl

/-- **What follows the claim succeeds** on a subject type that is a name and an
event time that has a UTC datetime. -/
theorem complete_ok (rt : Interpreter) {d : Delivery} {a : Admission} (claim : ReplayClaim)
    (hkey : isIdempotencyKey d.idempotencyKey = true) (hevent : WellFormed a.event)
    (htype : isName a.event.subjectType = true) (hutc : a.event.occurredAt.HasUtc) :
    ∃ r, complete rt d a claim = .ok r := by
  obtain ⟨o, ho⟩ := Option.ne_none_iff_exists'.mp hevent.occurredAt
  have hiso : isoformatZ a.event.occurredAt = .ok (isoText (a.event.occurredAt.wall - o)) := by
    unfold isoformatZ
    rw [ho]
    exact if_pos (hutc o ho)
  obtain ⟨digest, hdigest⟩ := sha256Text_ascii rt.toRuntime (isAscii_safe hkey)
  obtain ⟨hkeys, hvalues⟩ := verifiedPayload_plain d.scope a.event
    (isoText (a.event.occurredAt.wall - o)) a.signatureVerified claim.replayed a.payloadSha256 digest
  have hsubject : strip a.event.subjectId = a.event.subjectId :=
    strip_of_forall (fun c hc => isSpaceChar_safe (isSafeName_chars hevent.subjectId c hc))
  have hkind : isName (py "ingest.governed_event.verified") = true := by decide
  have hdraft := ReceiptDraft.new_plain rt.toRuntime a.event.truthLabel a.event.evidenceRefs
    hkind htype hsubject
    (isSafeName_ne_nil hevent.subjectId)
    (Nat.le_trans (isSafeName_length hevent.subjectId) (by decide)) hkeys hvalues
  unfold complete draftReceipt
  simp only [hiso, hdigest, hdraft, bind, Except.bind, pure, Except.pure]
  exact ⟨_, rfl⟩

/-- Otherwise it raises what no one declared. -/
theorem complete_error (rt : Interpreter) {d : Delivery} {a : Admission} (claim : ReplayClaim)
    (hkey : isIdempotencyKey d.idempotencyKey = true) (hevent : WellFormed a.event)
    (h : ¬ (isName a.event.subjectType = true ∧ a.event.occurredAt.HasUtc)) :
    ∃ e, complete rt d a claim = .error e ∧ e.isDeclared = false := by
  obtain ⟨o, ho⟩ := Option.ne_none_iff_exists'.mp hevent.occurredAt
  by_cases hutc : 0 ≤ a.event.occurredAt.wall - o ∧ a.event.occurredAt.wall - o ≤ maxMicros
  · have hiso : isoformatZ a.event.occurredAt = .ok (isoText (a.event.occurredAt.wall - o)) := by
      unfold isoformatZ
      rw [ho]
      exact if_pos hutc
    have hname : isName a.event.subjectType = false := by
      rw [← Bool.not_eq_true]
      intro hname
      refine h ⟨hname, fun o' ho' => ?_⟩
      rw [Option.some.inj (ho'.symm.trans ho)]
      exact hutc
    obtain ⟨digest, hdigest⟩ := sha256Text_ascii rt.toRuntime (isAscii_safe hkey)
    have hkind : isName (py "ingest.governed_event.verified") = true := by decide
    unfold complete draftReceipt ReceiptDraft.new requireName
    simp only [hiso, hdigest, hkind, hname, if_true, Bool.false_eq_true, if_false, bind, Except.bind]
    exact ⟨_, rfl, rfl⟩
  · have hiso : isoformatZ a.event.occurredAt = .error .overflowError := by
      unfold isoformatZ
      rw [ho]
      exact if_neg hutc
    unfold complete draftReceipt
    simp only [hiso, bind, Except.bind]
    exact ⟨_, rfl, rfl⟩

/-! ## §4. Failed verifications. -/

/-- A failed verification consumes nothing and fails by declared errors. -/
structure FailsCleanly (rt : Interpreter) (v : GovernedEventVerifier) (reg : ReplayProtector)
    (d : Delivery) : Prop where
  declared : ∀ e, (verify rt v reg d).1 = .error e → e.isDeclared = true
  live : ∀ e, (verify rt v reg d).1 = .error e → ∀ current, d.current? rt = some current →
    ∀ t, current ≤ t → (verify rt v reg d).2.prune t = reg.prune t
  judged : ∀ e, (verify rt v reg d).1 = .error e → ∀ v' d',
    (∀ current later, d.current? rt = some current → d'.current? rt = some later →
      current ≤ later) →
    (verify rt v' (verify rt v reg d).2 d').1 = (verify rt v' reg d').1

/-- The inputs on which it does: the clock reading is aware, a canonical
timestamp is one that a float holds, and where everything up to the registry
admits the delivery, its subject type is a name and its event time has a UTC
datetime. -/
structure Proper (rt : Interpreter) (v : GovernedEventVerifier) (reg : ReplayProtector)
    (d : Delivery) : Prop where
  aware : d.now.offset ≠ none
  timestamp : ¬ Oversized rt d.timestamp
  event : ∀ offset a idempotency, d.now.offset = some offset → Admits rt v d offset a →
    IdempotencyClaim.new d.idempotencyKey a.payloadSha256 = .ok idempotency →
    Registrable (reg.prune (rt.timestamp d.now offset)) d.nonce idempotency →
    isName a.event.subjectType = true ∧ a.event.occurredAt.HasUtc

/-- A failure on a proper input leaves the live entries alone. -/
theorem Proper.failure {rt : Interpreter} {v : GovernedEventVerifier} {reg : ReplayProtector}
    {d : Delivery} (h : Proper rt v reg d) {e : Exn} (he : (verify rt v reg d).1 = .error e) :
    e.isDeclared = true ∧ ∀ current, d.current? rt = some current →
      (verify rt v reg d).2.prune current = reg.prune current := by
  have hspec := verify_spec rt v reg d
  generalize (verify rt v reg d).1 = r at hspec he
  generalize (verify rt v reg d).2 = reg' at hspec
  obtain ⟨o, ho⟩ := Option.ne_none_iff_exists'.mp h.aware
  cases hspec with
  | refused e' hchecked =>
    cases he
    exact ⟨checkDelivery_declares ho h.timestamp _ hchecked, fun _ _ => rfl⟩
  | misnamed a offset e' _ _ hkey =>
    cases he
    exact ⟨Exn.isDeclared_of_payload (IdempotencyClaim.new_refuses _ _ _ hkey), fun _ _ => rfl⟩
  | unregistered a offset idempotency e' hnow _ _ _ hgov =>
    cases he
    refine ⟨by rw [Exn.isDeclared, hgov, Bool.true_or], fun current hcurrent => ?_⟩
    unfold Delivery.current? at hcurrent
    rw [hnow] at hcurrent
    cases hcurrent
    exact ReplayProtector.prune_prune (le_refl _) reg
  | registered a offset idempotency hnow ha hkey hreg =>
    exfalso
    obtain ⟨htype, hutc⟩ := h.event offset a idempotency hnow ha hkey hreg
    obtain ⟨decoded, _, hparse⟩ := ha.body
    obtain ⟨r, hr⟩ := complete_ok rt
      (claimOf (reg.prune (rt.timestamp d.now offset)) d idempotency)
      (IdempotencyClaim.new_ok hkey).2 (parseEvent_ok hparse).2 htype hutc
    rw [hr] at he
    cases he

/-- An input that is not proper makes `verify` raise what no one declared. -/
theorem undeclared_of_not_proper {rt : Interpreter} {v : GovernedEventVerifier}
    {reg : ReplayProtector} {d : Delivery} (h : ¬ Proper rt v reg d) :
    ∃ e, (verify rt v reg d).1 = .error e ∧ e.isDeclared = false := by
  by_cases haware : d.now.offset = none
  · refine ⟨.valueError (py "now must be timezone-aware"), ?_, rfl⟩
    unfold verify checkDelivery
    rw [haware]
  obtain ⟨o, ho⟩ := Option.ne_none_iff_exists'.mp haware
  by_cases hbig : Oversized rt d.timestamp
  · refine ⟨.overflowError, ?_, rfl⟩
    unfold verify checkDelivery
    rw [ho]
    simp only [checkTimestamp_oversized v (rt.timestamp d.now o) hbig, bind, Except.bind]
  have hevent : ∃ offset a idempotency, d.now.offset = some offset ∧ Admits rt v d offset a ∧
      IdempotencyClaim.new d.idempotencyKey a.payloadSha256 = .ok idempotency ∧
      Registrable (reg.prune (rt.timestamp d.now offset)) d.nonce idempotency ∧
      ¬ (isName a.event.subjectType = true ∧ a.event.occurredAt.HasUtc) := by
    by_contra hnone
    refine h ⟨haware, hbig, fun offset a idempotency hnow ha hkey hreg => ?_⟩
    by_contra hbad
    exact hnone ⟨offset, a, idempotency, hnow, ha, hkey, hreg, hbad⟩
  obtain ⟨offset, a, idempotency, hnow, ha, hkey, hreg, hbad⟩ := hevent
  obtain ⟨decoded, _, hparse⟩ := ha.body
  obtain ⟨e, he, hundeclared⟩ := complete_error rt
    (claimOf (reg.prune (rt.timestamp d.now offset)) d idempotency)
    (IdempotencyClaim.new_ok hkey).2 (parseEvent_ok hparse).2 hbad
  refine ⟨e, ?_, hundeclared⟩
  unfold verify
  rw [(checkDelivery_iff rt v d a).mpr ⟨offset, hnow, ha⟩]
  simp only
  rw [ReplayProtector.claim_eq rt reg ha.nonce hnow, hkey]
  simp only
  rw [ReplayProtector.register_ok hreg]
  exact he

/-- **A failed verification consumes nothing and fails by declared errors**
exactly on proper inputs. -/
theorem verify_fails_cleanly (rt : Interpreter) (v : GovernedEventVerifier) (reg : ReplayProtector)
    (d : Delivery) : FailsCleanly rt v reg d ↔ Proper rt v reg d := by
  constructor
  · intro h
    by_contra hbad
    obtain ⟨e, he, hundeclared⟩ := undeclared_of_not_proper hbad
    rw [h.declared e he] at hundeclared
    cases hundeclared
  · intro h
    refine ⟨fun e he => (h.failure he).1, fun e he current hcurrent t ht => ?_,
      fun e he v' d' hlater => ?_⟩
    · exact ReplayProtector.prune_congr ht ((h.failure he).2 current hcurrent)
    · obtain ⟨o, ho⟩ := Option.ne_none_iff_exists'.mp h.aware
      have hcurrent : d.current? rt = some (rt.timestamp d.now o) := by
        unfold Delivery.current?
        rw [ho]
        rfl
      refine verify_congr rt v' d' (fun later hlt => ?_)
      exact ReplayProtector.prune_congr (hlater _ later hcurrent hlt)
        ((h.failure he).2 _ hcurrent)

/-! ## §5. A failure that consumes its nonce. -/

/-- A failure with an exception that is not declared. -/
def failsUndeclared {α : Type} (r : Except Exn α) : Bool :=
  match r with
  | .error e => !e.isDeclared
  | .ok _ => false

theorem FailsCleanly.not_undeclared {rt : Interpreter} {v : GovernedEventVerifier}
    {reg : ReplayProtector} {d : Delivery} (h : FailsCleanly rt v reg d) :
    failsUndeclared (verify rt v reg d).1 = false := by
  cases hr : (verify rt v reg d).1 with
  | error e =>
    show (!e.isDeclared) = false
    rw [h.declared e hr]
    rfl
  | ok r => rfl

/-- An event about a `Deployment`, and its signature. -/
def capitalBody : List UInt8 := eventBody (py "Deployment")

def capitalSignature : PyStr :=
  py "9ea08bad197a6e14" ++ py "7a7925e2b38c3702" ++ py "9584a6df3279c5ca" ++ py "88d2dbaac07b65ac"

def capitalRuntime : Interpreter :=
  .sample
    (digestTable [
      (capitalBody, py "c4e0f85bb12e67d1" ++ py "3ad5ee91759389f7" ++ py "a98568ab4b7fb393" ++
        py "7186a3fb8c61442b"),
      (firstKey.map Nat.toUInt8, py "1fd0a687329a7170" ++ py "9f628636d4ac768a" ++
        py "6a17867a4d7a6893" ++ py "0b633bbb218ded96")])
    (digestTable [(signedBytes (py "1767225600") firstNonce capitalBody, capitalSignature)])

def capitalDelivery : Delivery :=
  .sample (py "workspace") capitalBody (py "1767225600") firstNonce firstKey capitalSignature 0
    (by decide)

/-- `Deployment` is a safe identifier and no name: a signed event about it
raises a ValueError when its nonce is already registered. -/
theorem verify_consumes_nonce :
    ¬ FailsCleanly capitalRuntime .sample .default capitalDelivery ∧
      (verify capitalRuntime .sample .default capitalDelivery).2.nonces.size = 1 := by
  constructor
  · intro h
    have hundeclared : failsUndeclared
        (verify capitalRuntime .sample .default capitalDelivery).1 = true := by decide +kernel
    rw [h.not_undeclared] at hundeclared
    cases hundeclared
  · decide +kernel

end Lyte
