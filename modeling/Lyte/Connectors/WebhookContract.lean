import Mathlib.Algebra.Order.Field.Basic
import Lyte.Connectors.GenericWebhook

/-
  Lyte.Connectors.WebhookContract — what each part of `verify` does.

      register_ok, register_error    when the registry takes a claim;
      checkDelivery_iff                      what a delivery is checked for before it;
      verify_spec                    the ways a verification goes.
-/

namespace Lyte

open Transact Expiring

/-! ## §1. The registry. -/

/-- What the registry asks of a claim, once it is pruned. -/
structure Registrable (reg : ReplayProtector) (nonce : PyStr) (idempotency : IdempotencyClaim) :
    Prop where
  fresh : reg.nonces.get? nonce = none
  room : reg.nonces.size < reg.maxEntries
  bound : ∀ e, reg.idempotency.get? idempotency.key = some e → e.1 = idempotency.payloadSha256
  keyRoom : reg.idempotency.get? idempotency.key = none → reg.idempotency.size < reg.maxEntries

namespace ReplayProtector

/-- The registries with a claim in them. -/
def withClaim (reg : ReplayProtector) (nonce : PyStr) (idempotency : IdempotencyClaim)
    (expires : Rat) : ReplayProtector :=
  { reg with
    nonces := reg.nonces.set nonce () expires
    idempotency := reg.idempotency.set idempotency.key idempotency.payloadSha256 expires }

theorem register_ok {reg : ReplayProtector} {nonce : PyStr} {idempotency : IdempotencyClaim}
    (h : Registrable reg nonce idempotency) (expires : Rat) :
    reg.register nonce idempotency expires =
      (.ok ⟨nonce, idempotency, (reg.idempotency.get? idempotency.key).isSome⟩,
        reg.withClaim nonce idempotency expires) := by
  have hroom : ¬ reg.maxEntries ≤ reg.nonces.size := Nat.not_le.mpr h.room
  have hbound : ¬ (reg.idempotency.get? idempotency.key).any
      (fun e => e.1 != idempotency.payloadSha256) = true := by
    intro hany
    obtain ⟨e, he, hne⟩ := (Option.any_eq_true _ _).mp hany
    exact (bne_iff_ne.mp hne) (h.bound e he)
  have hkey : ¬ ((reg.idempotency.get? idempotency.key).isNone &&
      decide (reg.maxEntries ≤ reg.idempotency.size)) = true := by
    intro hfull
    rw [Bool.and_eq_true, decide_eq_true_eq, Option.isNone_iff_eq_none] at hfull
    exact absurd (h.keyRoom hfull.1) (Nat.not_lt.mpr hfull.2)
  unfold register
  simp only [h.fresh, Option.isSome_none, Bool.false_eq_true, if_false, if_neg hroom,
    if_neg hbound, if_neg hkey, withClaim]

/-- **A claim that is refused leaves the registries as they are.** -/
theorem register_error {reg : ReplayProtector} {nonce : PyStr} {idempotency : IdempotencyClaim}
    (h : ¬ Registrable reg nonce idempotency) (expires : Rat) :
    ∃ e, e.isGovernedEventError = true ∧
      reg.register nonce idempotency expires = (.error e, reg) := by
  unfold register
  by_cases hfresh : (reg.nonces.get? nonce).isSome = true
  · simp only [if_pos hfresh]
    exact ⟨_, rfl, rfl⟩
  by_cases hroom : reg.maxEntries ≤ reg.nonces.size
  · simp only [if_neg hfresh, if_pos hroom]
    exact ⟨_, rfl, rfl⟩
  by_cases hbound : (reg.idempotency.get? idempotency.key).any
      (fun e => e.1 != idempotency.payloadSha256) = true
  · simp only [if_neg hfresh, if_neg hroom, if_pos hbound]
    exact ⟨_, rfl, rfl⟩
  by_cases hkey : ((reg.idempotency.get? idempotency.key).isNone &&
      decide (reg.maxEntries ≤ reg.idempotency.size)) = true
  · simp only [if_neg hfresh, if_neg hroom, if_neg hbound, if_pos hkey]
    exact ⟨_, rfl, rfl⟩
  exfalso
  refine h ⟨?_, Nat.not_le.mp hroom, fun e he => ?_, fun hnone => ?_⟩
  · rwa [Bool.not_eq_true, Option.isSome_eq_false_iff, Option.isNone_iff_eq_none] at hfresh
  · by_contra hne
    exact hbound ((Option.any_eq_true _ _).mpr ⟨e, he, bne_iff_ne.mpr hne⟩)
  · by_contra hfull
    exact hkey (by rw [hnone]; simpa using Nat.not_lt.mp hfull)

theorem claim_eq (rt : Interpreter) (reg : ReplayProtector) {nonce key sha : PyStr} {now : Stamp}
    {offset : Int} (hnonce : isNonce nonce = true) (hnow : now.offset = some offset) :
    reg.claim rt nonce key sha now =
      match IdempotencyClaim.new key sha with
      | .error e => (.error e, reg)
      | .ok idempotency => (reg.prune (rt.timestamp now offset)).register nonce idempotency
          (rt.toDouble (rt.timestamp now offset + reg.retentionSeconds)) := by
  unfold claim
  rw [hnonce, hnow]
  rfl

end ReplayProtector

theorem IdempotencyClaim.new_ok {key sha : PyStr} {i : IdempotencyClaim}
    (h : IdempotencyClaim.new key sha = .ok i) :
    i = ⟨key, sha⟩ ∧ isIdempotencyKey key = true := by
  unfold IdempotencyClaim.new at h
  by_cases hkey : isIdempotencyKey key = true
  · rw [hkey] at h
    change (if _ then _ else _) = _ at h
    by_cases hsha : (!isSha256Hex sha) = true
    · rw [if_pos hsha] at h
      cases h
    · rw [if_neg hsha] at h
      cases h
      exact ⟨rfl, hkey⟩
  · rw [Bool.not_eq_true] at hkey
    rw [hkey] at h
    cases h

theorem IdempotencyClaim.new_refuses (key sha : PyStr) : Refuses (IdempotencyClaim.new key sha) := by
  unfold IdempotencyClaim.new
  split
  · exact raises_error rfl
  split
  · exact raises_error rfl
  · exact raises_ok _

/-! ## §2. Before the claim. -/

/-- What a delivery is checked for before the registry is asked. -/
structure Admits (rt : Interpreter) (v : GovernedEventVerifier) (d : Delivery) (offset : Int)
    (a : Admission) : Prop where
  timestamp : checkTimestamp rt v d.timestamp (rt.timestamp d.now offset) = .ok ()
  nonce : isNonce d.nonce = true
  signature : checkSignature rt v d = .ok a.signatureVerified
  body : ∃ decoded, strictJsonLoads rt d.body v.maxBodyBytes (py "governed_event") = .ok decoded ∧
    parseEvent rt decoded = .ok a.event
  source : v.allowedSources.contains a.event.sourceId = true
  payload : a.payloadSha256 = rt.sha256 d.body

theorem checkDelivery_iff (rt : Interpreter) (v : GovernedEventVerifier) (d : Delivery) (a : Admission) :
    checkDelivery rt v d = .ok a ↔ ∃ offset, d.now.offset = some offset ∧ Admits rt v d offset a := by
  constructor
  · intro h
    unfold checkDelivery at h
    cases hoff : d.now.offset with
    | none =>
      rw [hoff] at h
      cases h
    | some offset =>
      rw [hoff] at h
      refine ⟨offset, rfl, ?_⟩
      obtain ⟨u, htime, h⟩ := ok_of_bind h
      obtain ⟨hnonce, h⟩ := ok_of_guard h
      obtain ⟨verified, hsig, h⟩ := ok_of_bind h
      obtain ⟨decoded, hbody, h⟩ := ok_of_bind h
      obtain ⟨event, hevent, h⟩ := ok_of_bind h
      obtain ⟨hsource, h⟩ := ok_of_guard h
      cases h
      exact ⟨htime, by simpa using hnonce, hsig, ⟨decoded, hbody, hevent⟩, by simpa using hsource,
        rfl⟩
  · rintro ⟨offset, hoff, h⟩
    obtain ⟨decoded, hbody, hevent⟩ := h.body
    have hsource := h.source
    unfold checkDelivery
    rw [hoff]
    simp only [h.timestamp, h.nonce, h.signature, hbody, hevent, hsource, Bool.not_true,
      bind, Except.bind, pure, Except.pure]
    rw [← h.payload]
    rfl

/-- What the parser promises of an event. -/
structure WellFormed (e : GovernedEvent) : Prop where
  subjectType : isSafeId e.subjectType = true
  subjectId : isSafeId e.subjectId = true
  occurredAt : e.occurredAt.offset ≠ none

theorem safeField_ok {event : List (PyStr × Json)} {field raw : PyStr}
    (h : safeField event field = .ok raw) : isSafeId raw = true := by
  unfold safeField at h
  split at h
  · split at h
    · next hsafe =>
      cases h
      exact hsafe
    · cases h
  · cases h

theorem parseOccurredAt_ok {rt : Interpreter} {value : Json} {s : Stamp}
    (h : parseOccurredAt rt value = .ok s) : s.offset ≠ none := by
  unfold parseOccurredAt at h
  split at h
  · split at h
    · cases h
    split at h
    · split at h
      · cases h
      · cases h
    · split at h
      · cases h
      · next hoff =>
        cases h
        simpa using hoff
  · cases h

theorem parseEvent_ok {rt : Interpreter} {value : Json} {e : GovernedEvent}
    (h : parseEvent rt value = .ok e) : (∃ fields, value = .dict fields) ∧ WellFormed e := by
  obtain ⟨event, hevent, h⟩ := ok_of_bind h
  obtain ⟨_, _, h⟩ := ok_of_bind h
  obtain ⟨_, h⟩ := ok_of_guard h
  obtain ⟨_, _, h⟩ := ok_of_bind h
  obtain ⟨_, _, h⟩ := ok_of_bind h
  obtain ⟨_, _, h⟩ := ok_of_bind h
  obtain ⟨subjectType, htype, h⟩ := ok_of_bind h
  obtain ⟨subjectId, hid, h⟩ := ok_of_bind h
  obtain ⟨occurredAt, hat, h⟩ := ok_of_bind h
  obtain ⟨_, _, h⟩ := ok_of_bind h
  obtain ⟨_, _, h⟩ := ok_of_bind h
  obtain ⟨_, _, h⟩ := ok_of_bind h
  obtain ⟨_, _, h⟩ := ok_of_bind h
  cases h
  refine ⟨?_, safeField_ok htype, safeField_ok hid, parseOccurredAt_ok hat⟩
  unfold requireObject at hevent
  split at hevent
  · exact ⟨_, rfl⟩
  · cases hevent

/-! ## §3. The whole verification. -/

/-- The claim that a registry returns. -/
def claimOf (reg : ReplayProtector) (d : Delivery) (idempotency : IdempotencyClaim) : ReplayClaim :=
  ⟨d.nonce, idempotency, (reg.idempotency.get? idempotency.key).isSome⟩

/-- The ways a verification goes: it fails before the claim, at its key, in the
registry, or it registers the claim. -/
inductive Verifies (rt : Interpreter) (v : GovernedEventVerifier) (reg : ReplayProtector)
    (d : Delivery) : Except Exn VerifiedGovernedEvent → ReplayProtector → Prop
  | refused (e : Exn) (h : checkDelivery rt v d = .error e) : Verifies rt v reg d (.error e) reg
  | misnamed (a : Admission) (offset : Int) (e : Exn) (hnow : d.now.offset = some offset)
      (ha : Admits rt v d offset a)
      (hkey : IdempotencyClaim.new d.idempotencyKey a.payloadSha256 = .error e) :
      Verifies rt v reg d (.error e) reg
  | unregistered (a : Admission) (offset : Int) (idempotency : IdempotencyClaim) (e : Exn)
      (hnow : d.now.offset = some offset) (ha : Admits rt v d offset a)
      (hkey : IdempotencyClaim.new d.idempotencyKey a.payloadSha256 = .ok idempotency)
      (hreg : ¬ Registrable (reg.prune (rt.timestamp d.now offset)) d.nonce idempotency)
      (he : e.isGovernedEventError = true) :
      Verifies rt v reg d (.error e) (reg.prune (rt.timestamp d.now offset))
  | registered (a : Admission) (offset : Int) (idempotency : IdempotencyClaim)
      (hnow : d.now.offset = some offset) (ha : Admits rt v d offset a)
      (hkey : IdempotencyClaim.new d.idempotencyKey a.payloadSha256 = .ok idempotency)
      (hreg : Registrable (reg.prune (rt.timestamp d.now offset)) d.nonce idempotency) :
      Verifies rt v reg d
        (complete rt d a (claimOf (reg.prune (rt.timestamp d.now offset)) d idempotency))
        ((reg.prune (rt.timestamp d.now offset)).withClaim d.nonce idempotency
          (rt.toDouble (rt.timestamp d.now offset + reg.retentionSeconds)))

theorem verify_spec (rt : Interpreter) (v : GovernedEventVerifier) (reg : ReplayProtector)
    (d : Delivery) : Verifies rt v reg d (verify rt v reg d).1 (verify rt v reg d).2 := by
  unfold verify
  cases hchecked : checkDelivery rt v d with
  | error e => exact .refused e hchecked
  | ok a =>
    obtain ⟨offset, hoff, ha⟩ := (checkDelivery_iff rt v d a).mp hchecked
    simp only
    rw [ReplayProtector.claim_eq rt reg ha.nonce hoff]
    cases hnew : IdempotencyClaim.new d.idempotencyKey a.payloadSha256 with
    | error e => exact .misnamed a offset e hoff ha hnew
    | ok idempotency =>
      simp only
      by_cases hreg : Registrable (reg.prune (rt.timestamp d.now offset)) d.nonce idempotency
      · rw [ReplayProtector.register_ok hreg]
        exact .registered a offset idempotency hoff ha hnew hreg
      · obtain ⟨e, he, heq⟩ := ReplayProtector.register_error hreg
          (rt.toDouble (rt.timestamp d.now offset + reg.retentionSeconds))
        rw [heq]
        exact .unregistered a offset idempotency e hoff ha hnew hreg he

/-! ## §4. Runs. -/

/-- One call of `verify`. -/
structure Call where
  verifier : GovernedEventVerifier
  delivery : Delivery

/-- A call in a run: the registry it found, and how it went. -/
structure Turn where
  before : ReplayProtector
  call : Call
  outcome : Except Exn VerifiedGovernedEvent

/-- Calls one after the other over one registry. -/
def trace (rt : Interpreter) : ReplayProtector → List Call → List Turn
  | _, [] => []
  | reg, c :: calls =>
      ⟨reg, c, (verify rt c.verifier reg c.delivery).1⟩ ::
        trace rt (verify rt c.verifier reg c.delivery).2 calls

theorem mem_trace {rt : Interpreter} {reg : ReplayProtector} {calls : List Call} {t : Turn}
    (h : t ∈ trace rt reg calls) :
    t.call ∈ calls ∧ t.outcome = (verify rt t.call.verifier t.before t.call.delivery).1 := by
  induction calls generalizing reg with
  | nil => cases h
  | cons c calls ih =>
    rcases List.mem_cons.mp h with rfl | h
    · exact ⟨List.mem_cons_self, rfl⟩
    · obtain ⟨hmem, houtcome⟩ := ih h
      exact ⟨List.mem_cons_of_mem _ hmem, houtcome⟩

/-- The deliveries that a run accepts. -/
def accepted (rt : Interpreter) (reg : ReplayProtector) (calls : List Call) : List Delivery :=
  (trace rt reg calls).filterMap (fun t => if t.outcome.isOk then some t.call.delivery else none)

theorem mem_accepted {rt : Interpreter} {reg : ReplayProtector} {calls : List Call} {d : Delivery} :
    d ∈ accepted rt reg calls ↔
      ∃ t ∈ trace rt reg calls, t.outcome.isOk = true ∧ t.call.delivery = d := by
  unfold accepted
  rw [List.mem_filterMap]
  constructor
  · rintro ⟨t, ht, hd⟩
    split at hd
    · next hok => exact ⟨t, ht, hok, Option.some.inj hd⟩
    · cases hd
  · rintro ⟨t, ht, hok, hd⟩
    exact ⟨t, ht, by rw [if_pos hok, hd]⟩

theorem accepted_cons_ok {rt : Interpreter} {reg : ReplayProtector} {c : Call} {calls : List Call}
    (h : (verify rt c.verifier reg c.delivery).1.isOk = true) :
    accepted rt reg (c :: calls) =
      c.delivery :: accepted rt (verify rt c.verifier reg c.delivery).2 calls :=
  List.filterMap_cons_some (if_pos h)

theorem accepted_cons_refused {rt : Interpreter} {reg : ReplayProtector} {c : Call}
    {calls : List Call} (h : (verify rt c.verifier reg c.delivery).1.isOk = false) :
    accepted rt reg (c :: calls) =
      accepted rt (verify rt c.verifier reg c.delivery).2 calls :=
  List.filterMap_cons_none (if_neg (Bool.not_eq_true _ ▸ h))

/-- The reading of the clock that a delivery carries. -/
def Delivery.clock (d : Delivery) : Int := d.now.wall - d.now.offset.getD 0

/-- The clock does not go back. -/
def ClockMonotone (calls : List Call) : Prop :=
  calls.Pairwise (fun c c' => c.delivery.clock ≤ c'.delivery.clock)

theorem timestamp_mono (rt : Interpreter) {d d' : Delivery} {offset offset' : Int}
    (hnow : d.now.offset = some offset) (hnow' : d'.now.offset = some offset')
    (h : d.clock ≤ d'.clock) : rt.timestamp d.now offset ≤ rt.timestamp d'.now offset' := by
  simp only [Delivery.clock, hnow, hnow', Option.getD_some] at h
  refine rt.toDouble_mono _ _ ?_
  rw [Rat.mkRat_eq_div, Rat.mkRat_eq_div]
  have hle : ((d.now.wall - offset - epochMicros : Int) : Rat) ≤
      ((d'.now.wall - offset' - epochMicros : Int) : Rat) := by
    exact_mod_cast (by omega)
  exact div_le_div_of_nonneg_right hle Rat.natCast_nonneg

end Lyte
