import Lyte.Connectors.WebhookFailures

/-
  Lyte.Connectors.WebhookScopes — deliveries of other scopes do not interfere.

  The registry is shared by all scopes and knows nothing of them.  It still
  falls apart into the part of a scope and the rest: while the names of a scope
  are its own, its part of the registry is what it would be without the others
  (`Shares`), and a claim is decided within it unless the registry is full.

      scope_noninterference    the outcomes of a scope, with and without the
                               deliveries of the others.
-/

namespace Lyte

open Transact Expiring

/-! ## §1. The part of a scope. -/

/-- From `current` on, the part of one registry under some names is another. -/
structure Shares (p q : PyStr → Bool) (current : Rat) (full solo : ReplayProtector) : Prop where
  retention : full.retentionSeconds = solo.retentionSeconds
  capacity : full.maxEntries = solo.maxEntries
  nonces : (full.nonces.prune current).restrict p = solo.nonces.prune current
  idempotency : (full.idempotency.prune current).restrict q = solo.idempotency.prune current

section Shares

variable {p q : PyStr → Bool} {current : Rat} {full solo : ReplayProtector}

theorem Shares.later {later : Rat} (h : Shares p q current full solo) (hle : current ≤ later) :
    Shares p q later full solo := by
  refine ⟨h.retention, h.capacity, ?_, ?_⟩
  · rw [← Table.prune_prune hle full.nonces, Table.restrict_prune, h.nonces, Table.prune_prune hle]
  · rw [← Table.prune_prune hle full.idempotency, Table.restrict_prune, h.idempotency,
      Table.prune_prune hle]

theorem Shares.prune (h : Shares p q current full solo) :
    Shares p q current (full.prune current) (solo.prune current) := by
  refine ⟨h.retention, h.capacity, ?_, ?_⟩
  · show ((full.nonces.prune current).prune current).restrict p = (solo.nonces.prune current).prune _
    rw [Table.prune_prune (le_refl _), Table.prune_prune (le_refl _), h.nonces]
  · show ((full.idempotency.prune current).prune current).restrict q =
      (solo.idempotency.prune current).prune _
    rw [Table.prune_prune (le_refl _), Table.prune_prune (le_refl _), h.idempotency]

theorem Shares.prune_left (h : Shares p q current full solo) :
    Shares p q current (full.prune current) solo := by
  refine ⟨h.retention, h.capacity, ?_, ?_⟩
  · show ((full.nonces.prune current).prune current).restrict p = _
    rw [Table.prune_prune (le_refl _), h.nonces]
  · show ((full.idempotency.prune current).prune current).restrict q = _
    rw [Table.prune_prune (le_refl _), h.idempotency]

/-- The same claim under a name of the part. -/
theorem Shares.withClaim (h : Shares p q current full solo) {nonce : PyStr}
    {idempotency : IdempotencyClaim} (hp : p nonce = true) (hq : q idempotency.key = true)
    (expires : Rat) :
    Shares p q current ((full.prune current).withClaim nonce idempotency expires)
      ((solo.prune current).withClaim nonce idempotency expires) := by
  refine ⟨h.retention, h.capacity, ?_, ?_⟩
  · show (Table.prune current (Table.set _ nonce () expires)).restrict p =
      Table.prune current (Table.set _ nonce () expires)
    rw [Table.restrict_prune, Table.restrict_set _ hp]
    exact congrArg (fun x => Table.prune current (Table.set x nonce () expires)) h.nonces
  · show (Table.prune current (Table.set _ idempotency.key idempotency.payloadSha256 expires)).restrict
        q = Table.prune current (Table.set _ idempotency.key idempotency.payloadSha256 expires)
    rw [Table.restrict_prune, Table.restrict_set _ hq]
    exact congrArg (fun x => Table.prune current
      (Table.set x idempotency.key idempotency.payloadSha256 expires)) h.idempotency

/-- A claim under other names. -/
theorem Shares.withClaim_ne (h : Shares p q current full solo) {nonce : PyStr}
    {idempotency : IdempotencyClaim} (hp : p nonce = false) (hq : q idempotency.key = false)
    (expires : Rat) :
    Shares p q current ((full.prune current).withClaim nonce idempotency expires) solo := by
  refine ⟨h.retention, h.capacity, ?_, ?_⟩
  · show (Table.prune current (Table.set _ nonce () expires)).restrict p = _
    rw [Table.restrict_prune, Table.restrict_set_ne _ hp]
    show Table.prune current (Table.restrict p (Table.prune current full.nonces)) = _
    rw [h.nonces, Table.prune_prune (le_refl _)]
  · show (Table.prune current (Table.set _ idempotency.key idempotency.payloadSha256 expires)).restrict
        q = _
    rw [Table.restrict_prune, Table.restrict_set_ne _ hq]
    show Table.prune current (Table.restrict q (Table.prune current full.idempotency)) = _
    rw [h.idempotency, Table.prune_prune (le_refl _)]

end Shares

/-! ## §2. One delivery. -/

/-- The registries take one more entry each. -/
structure HasRoom (reg : ReplayProtector) : Prop where
  nonces : reg.nonces.size < reg.maxEntries
  idempotency : reg.idempotency.size < reg.maxEntries

/-- A delivery of another scope that is admitted uses other names. -/
theorem verify_shares_ne {rt : Interpreter} {p q : PyStr → Bool} {full solo : ReplayProtector}
    (v : GovernedEventVerifier) {d : Delivery} {current : Rat}
    (hcurrent : d.current? rt = some current) (h : Shares p q current full solo)
    (hnames : ∀ a, checkDelivery rt v d = .ok a → p d.nonce = false ∧ q d.idempotencyKey = false) :
    Shares p q current (verify rt v full d).2 solo := by
  have hspec := verify_spec rt v full d
  generalize (verify rt v full d).1 = r at hspec
  generalize (verify rt v full d).2 = full' at hspec
  have hat : ∀ {offset : Int}, d.now.offset = some offset → rt.timestamp d.now offset = current := by
    intro offset hnow
    unfold Delivery.current? at hcurrent
    rw [hnow] at hcurrent
    exact Option.some.inj hcurrent
  cases hspec with
  | refused e _ => exact h
  | misnamed a offset e _ _ _ => exact h
  | unregistered a offset idempotency e hnow _ _ _ _ =>
    rw [hat hnow]
    exact h.prune_left
  | registered a offset idempotency hnow ha hkey _ =>
    rw [hat hnow]
    obtain ⟨hp, hq⟩ := hnames a ((checkDelivery_iff rt v d a).mpr ⟨offset, hnow, ha⟩)
    obtain ⟨rfl, _⟩ := IdempotencyClaim.new_ok hkey
    exact h.withClaim_ne hp hq _

/-- **A claim under a name of the part is decided within the part**, unless the
registry is full. -/
theorem register_shares {p q : PyStr → Bool} {full solo : ReplayProtector} {current : Rat}
    (h : Shares p q current full solo) {nonce : PyStr} {idempotency : IdempotencyClaim}
    (hp : p nonce = true) (hq : q idempotency.key = true) (hroom : HasRoom (full.prune current))
    (expires : Rat) :
    ((full.prune current).register nonce idempotency expires).1 =
        ((solo.prune current).register nonce idempotency expires).1 ∧
      Shares p q current ((full.prune current).register nonce idempotency expires).2
        ((solo.prune current).register nonce idempotency expires).2 := by
  have hnonce : (full.prune current).nonces.get? nonce = (solo.prune current).nonces.get? nonce := by
    show (full.nonces.prune current).get? nonce = (solo.nonces.prune current).get? nonce
    rw [← h.nonces, Table.get?_restrict _ hp]
  have hkey : (full.prune current).idempotency.get? idempotency.key =
      (solo.prune current).idempotency.get? idempotency.key := by
    show (full.idempotency.prune current).get? _ = (solo.idempotency.prune current).get? _
    rw [← h.idempotency, Table.get?_restrict _ hq]
  have hsolo : HasRoom (solo.prune current) := by
    constructor
    · show (solo.nonces.prune current).size < solo.maxEntries
      rw [← h.nonces, ← h.capacity]
      exact Nat.lt_of_le_of_lt (Table.restrict_size _ _) hroom.nonces
    · show (solo.idempotency.prune current).size < solo.maxEntries
      rw [← h.idempotency, ← h.capacity]
      exact Nat.lt_of_le_of_lt (Table.restrict_size _ _) hroom.idempotency
  have hfull₁ := Nat.not_le.mpr hroom.nonces
  have hfull₂ := Nat.not_le.mpr hsolo.nonces
  have hfull₃ := Nat.not_le.mpr hroom.idempotency
  have hfull₄ := Nat.not_le.mpr hsolo.idempotency
  unfold ReplayProtector.register
  rw [hnonce, hkey]
  simp only [if_neg hfull₁, if_neg hfull₂, hfull₃, hfull₄, decide_false, Bool.and_false,
    Bool.false_eq_true, if_false]
  split
  · exact ⟨rfl, h.prune⟩
  split
  · exact ⟨rfl, h.prune⟩
  · exact ⟨rfl, h.withClaim hp hq expires⟩

/-- A full registry refuses every scope. -/
theorem verify_full (rt : Interpreter) (v : GovernedEventVerifier) {reg : ReplayProtector}
    {d : Delivery} {a : Admission} {offset : Int} {idempotency : IdempotencyClaim}
    (hnow : d.now.offset = some offset) (ha : Admits rt v d offset a)
    (hkey : IdempotencyClaim.new d.idempotencyKey a.payloadSha256 = .ok idempotency)
    (hfull : reg.maxEntries ≤ (reg.prune (rt.timestamp d.now offset)).nonces.size) :
    (verify rt v reg d).1.isOk = false := by
  have hnot : ¬ Registrable (reg.prune (rt.timestamp d.now offset)) d.nonce idempotency :=
    fun h => absurd h.room (Nat.not_lt.mpr hfull)
  obtain ⟨e, _, he⟩ := ReplayProtector.register_error hnot
    (rt.toDouble (rt.timestamp d.now offset + reg.retentionSeconds))
  unfold verify
  rw [(checkDelivery_iff rt v d a).mpr ⟨offset, hnow, ha⟩]
  simp only
  rw [ReplayProtector.claim_eq rt reg ha.nonce hnow, hkey]
  simp only
  rw [he]
  rfl

/-- A delivery of the scope itself. -/
theorem verify_shares {rt : Interpreter} {p q : PyStr → Bool} {full solo : ReplayProtector}
    (v : GovernedEventVerifier) {d : Delivery} {current : Rat}
    (hcurrent : d.current? rt = some current) (h : Shares p q current full solo)
    (hp : p d.nonce = true) (hq : q d.idempotencyKey = true)
    (hroom : HasRoom (full.prune current)) :
    (verify rt v full d).1 = (verify rt v solo d).1 ∧
      Shares p q current (verify rt v full d).2 (verify rt v solo d).2 := by
  unfold verify
  cases hchecked : checkDelivery rt v d with
  | error e => exact ⟨rfl, h⟩
  | ok a =>
    obtain ⟨offset, hnow, ha⟩ := (checkDelivery_iff rt v d a).mp hchecked
    obtain rfl : rt.timestamp d.now offset = current := by
      unfold Delivery.current? at hcurrent
      rw [hnow] at hcurrent
      exact Option.some.inj hcurrent
    simp only
    rw [ReplayProtector.claim_eq rt full ha.nonce hnow, ReplayProtector.claim_eq rt solo ha.nonce hnow,
      h.retention]
    cases hkey : IdempotencyClaim.new d.idempotencyKey a.payloadSha256 with
    | error e => exact ⟨rfl, h⟩
    | ok idempotency =>
      obtain ⟨rfl, _⟩ := IdempotencyClaim.new_ok hkey
      obtain ⟨hout, hshares⟩ := register_shares h hp
        (show q (IdempotencyClaim.mk d.idempotencyKey a.payloadSha256).key = true from hq) hroom
        (rt.toDouble (rt.timestamp d.now offset + solo.retentionSeconds))
      simp only
      generalize (full.prune _).register d.nonce _ _ = x at hout hshares
      generalize (solo.prune _).register d.nonce _ _ = y at hout hshares
      obtain ⟨r, full'⟩ := x
      obtain ⟨r', solo'⟩ := y
      obtain rfl : r = r' := hout
      cases r with
      | error e => exact ⟨rfl, hshares⟩
      | ok claim => exact ⟨rfl, hshares⟩

/-! ## §3. Runs. -/

/-- The outcomes of the deliveries to a scope. -/
def outcomesOf (A : Scope) (turns : List Turn) : List (Except Exn VerifiedGovernedEvent) :=
  (turns.filter (fun t => t.call.delivery.scope = A)).map Turn.outcome

/-- The calls that deliver to a scope. -/
def callsOf (A : Scope) (calls : List Call) : List Call :=
  calls.filter (fun c => c.delivery.scope = A)

section Outcomes

variable {rt : Interpreter} {A : Scope} {reg : ReplayProtector} {c : Call} {calls : List Call}

theorem outcomesOf_cons (h : c.delivery.scope = A) :
    outcomesOf A (trace rt reg (c :: calls)) = (verify rt c.verifier reg c.delivery).1 ::
      outcomesOf A (trace rt (verify rt c.verifier reg c.delivery).2 calls) := by
  simp [outcomesOf, trace, h]

theorem outcomesOf_cons_ne (h : c.delivery.scope ≠ A) :
    outcomesOf A (trace rt reg (c :: calls)) =
      outcomesOf A (trace rt (verify rt c.verifier reg c.delivery).2 calls) := by
  simp [outcomesOf, trace, h]

theorem callsOf_cons (h : c.delivery.scope = A) : callsOf A (c :: calls) = c :: callsOf A calls :=
  List.filter_cons_of_pos (decide_eq_true h)

theorem callsOf_cons_ne (h : c.delivery.scope ≠ A) : callsOf A (c :: calls) = callsOf A calls :=
  List.filter_cons_of_neg (by simpa using h)

/-- A naive clock reading is refused, and no registry matters. -/
theorem verify_naive (v : GovernedEventVerifier) {d : Delivery} (h : d.current? rt = none) :
    verify rt v reg d = (.error (.valueError (py "now must be timezone-aware")), reg) := by
  have hoff : d.now.offset = none := Option.map_eq_none_iff.mp h
  unfold verify checkDelivery
  rw [hoff]

end Outcomes

/-- No admitted delivery of another scope uses a nonce or an idempotency key of
the scope. -/
def OwnNames (rt : Interpreter) (A : Scope) (calls : List Call) : Prop :=
  ∀ c ∈ calls, ∀ c' ∈ calls, c.delivery.scope = A → c'.delivery.scope ≠ A →
    (∃ a, checkDelivery rt c'.verifier c'.delivery = .ok a) →
    c.delivery.nonce ≠ c'.delivery.nonce ∧ c.delivery.idempotencyKey ≠ c'.delivery.idempotencyKey

/-- The registry has room whenever a delivery of the scope is judged. -/
def RoomFor (rt : Interpreter) (A : Scope) (turns : List Turn) : Prop :=
  ∀ t ∈ turns, t.call.delivery.scope = A → ∀ current, t.call.delivery.current? rt = some current →
    HasRoom (t.before.prune current)

theorem outcomesOf_shares {rt : Interpreter} {A : Scope} {p q : PyStr → Bool} {calls : List Call}
    (hmine : ∀ c ∈ calls, c.delivery.scope = A →
      p c.delivery.nonce = true ∧ q c.delivery.idempotencyKey = true)
    (hothers : ∀ c ∈ calls, c.delivery.scope ≠ A → ∀ a, checkDelivery rt c.verifier c.delivery = .ok a →
      p c.delivery.nonce = false ∧ q c.delivery.idempotencyKey = false)
    (hclock : ClockMonotone calls) {full solo : ReplayProtector}
    (hroom : RoomFor rt A (trace rt full calls))
    (h : ∀ c ∈ calls, ∀ current, c.delivery.current? rt = some current →
      Shares p q current full solo) :
    outcomesOf A (trace rt full calls) = outcomesOf A (trace rt solo (callsOf A calls)) := by
  induction calls generalizing full solo with
  | nil => rfl
  | cons c calls ih =>
    obtain ⟨hhead, htail⟩ := List.pairwise_cons.mp hclock
    have hroom' : RoomFor rt A (trace rt (verify rt c.verifier full c.delivery).2 calls) :=
      fun t ht => hroom t (List.mem_cons_of_mem _ ht)
    have hmine' := fun c' hc' => hmine c' (List.mem_cons_of_mem _ hc')
    have hothers' := fun c' hc' => hothers c' (List.mem_cons_of_mem _ hc')
    -- what holds at this delivery's clock holds at those of the rest
    have hlater : ∀ {full' solo' : ReplayProtector} {current : Rat},
        c.delivery.current? rt = some current → Shares p q current full' solo' →
        ∀ c' ∈ calls, ∀ later, c'.delivery.current? rt = some later →
          Shares p q later full' solo' := by
      intro full' solo' current hcurrent hshares c' hc' later hlater
      obtain ⟨offset, hnow, rfl⟩ := Option.map_eq_some_iff.mp hcurrent
      obtain ⟨offset', hnow', rfl⟩ := Option.map_eq_some_iff.mp hlater
      exact hshares.later (timestamp_mono rt hnow hnow' (hhead c' hc'))
    by_cases hscope : c.delivery.scope = A
    · rw [callsOf_cons hscope, outcomesOf_cons hscope, outcomesOf_cons hscope]
      cases hcurrent : c.delivery.current? rt with
      | none =>
        rw [verify_naive c.verifier hcurrent] at hroom' ⊢
        rw [verify_naive c.verifier hcurrent]
        exact congrArg _ (ih hmine' hothers' htail hroom'
          (fun c' hc' => h c' (List.mem_cons_of_mem _ hc')))
      | some current =>
        obtain ⟨hp, hq⟩ := hmine c List.mem_cons_self hscope
        obtain ⟨hout, hshares⟩ := verify_shares c.verifier hcurrent
          (h c List.mem_cons_self current hcurrent) hp hq
          (hroom _ List.mem_cons_self hscope current hcurrent)
        rw [hout]
        exact congrArg _ (ih hmine' hothers' htail hroom' (hlater hcurrent hshares))
    · rw [callsOf_cons_ne hscope, outcomesOf_cons_ne hscope]
      cases hcurrent : c.delivery.current? rt with
      | none =>
        rw [verify_naive c.verifier hcurrent] at hroom' ⊢
        exact ih hmine' hothers' htail hroom' (fun c' hc' => h c' (List.mem_cons_of_mem _ hc'))
      | some current =>
        have hshares := verify_shares_ne c.verifier hcurrent
          (h c List.mem_cons_self current hcurrent) (hothers c List.mem_cons_self hscope)
        exact ih hmine' hothers' htail hroom' (hlater hcurrent hshares)

/-- **Deliveries of other scopes do not interfere** while the names of a scope
are its own, the clock does not go back and the registry has room. -/
theorem scope_noninterference (rt : Interpreter) (A : Scope) {retentionSeconds maxEntries : Nat}
    {reg : ReplayProtector} (hreg : ReplayProtector.new retentionSeconds maxEntries = .ok reg)
    (calls : List Call) (hnames : OwnNames rt A calls) (hclock : ClockMonotone calls)
    (hroom : RoomFor rt A (trace rt reg calls)) :
    outcomesOf A (trace rt reg calls) = outcomesOf A (trace rt reg (callsOf A calls)) := by
  have hempty : reg.nonces = .empty ∧ reg.idempotency = .empty := by
    unfold ReplayProtector.new at hreg
    split at hreg
    · split at hreg
      · cases hreg
        exact ⟨rfl, rfl⟩
      · cases hreg
    · cases hreg
  let p : PyStr → Bool := fun n => calls.any
    (fun c => decide (c.delivery.scope = A) && decide (c.delivery.nonce = n))
  let q : PyStr → Bool := fun n => calls.any
    (fun c => decide (c.delivery.scope = A) && decide (c.delivery.idempotencyKey = n))
  refine outcomesOf_shares (p := p) (q := q) (fun c hc hscope => ?_) (fun c hc hscope a ha => ?_)
    hclock hroom (fun c hc current _ => ?_)
  · constructor
    · exact List.any_eq_true.mpr ⟨c, hc, by simp [hscope]⟩
    · exact List.any_eq_true.mpr ⟨c, hc, by simp [hscope]⟩
  · constructor
    · refine List.any_eq_false.mpr (fun c' hc' hmatch => ?_)
      simp only [Bool.and_eq_true, decide_eq_true_eq] at hmatch
      exact (hnames c' hc' c hc hmatch.1 hscope ⟨a, ha⟩).1 hmatch.2
    · refine List.any_eq_false.mpr (fun c' hc' hmatch => ?_)
      simp only [Bool.and_eq_true, decide_eq_true_eq] at hmatch
      exact (hnames c' hc' c hc hmatch.1 hscope ⟨a, ha⟩).2 hmatch.2
  · refine ⟨rfl, rfl, ?_, ?_⟩
    · rw [hempty.1]
      rfl
    · rw [hempty.2]
      rfl

/-- The other scope's deployment goes first; the scope's own, with names of its
own, is accepted as it is alone. -/
theorem scope_noninterference_sample :
    (outcomesOf (laterDeployment (py "second")).delivery.scope
        (trace deploymentRuntime .default
          [deployment (py "first") 0 (by decide), laterDeployment (py "second")])).map
      (fun r => r.isOk) = [true] ∧
    outcomesOf (laterDeployment (py "second")).delivery.scope
        (trace deploymentRuntime .default
          [deployment (py "first") 0 (by decide), laterDeployment (py "second")]) =
      outcomesOf (laterDeployment (py "second")).delivery.scope
        (trace deploymentRuntime .default
          (callsOf (laterDeployment (py "second")).delivery.scope
            [deployment (py "first") 0 (by decide), laterDeployment (py "second")])) := by
  have hother : (deployment (py "first") 0 (by decide)).delivery.scope ≠
      (laterDeployment (py "second")).delivery.scope := by decide
  refine ⟨by decide +kernel, scope_noninterference deploymentRuntime _
    (show ReplayProtector.new 900 20000 = .ok .default from rfl) _ ?_ ?_ ?_⟩
  · intro c hc c' hc' hscope hscope' _
    simp only [List.mem_cons, List.not_mem_nil, or_false] at hc hc'
    rcases hc with rfl | rfl
    · exact absurd hscope hother
    · rcases hc' with rfl | rfl
      · decide
      · exact absurd rfl hscope'
  · refine List.pairwise_cons.mpr ⟨fun c hc => ?_, List.pairwise_singleton _ _⟩
    rw [List.mem_singleton.mp hc]
    decide
  · intro t ht hscope current hcurrent
    simp only [trace, List.mem_cons, List.not_mem_nil, or_false] at ht
    rcases ht with rfl | rfl
    · exact absurd hscope hother
    · cases hcurrent
      constructor
      · decide +kernel
      · decide +kernel

/-- **Without these conditions they do interfere.**  The same message to two
scopes: the second is refused for the nonce of the first.  And where the clock
goes back, the other scope's delivery has dropped a nonce that the scope still
relies on. -/
theorem scope_interference :
    outcomesOf (deployment (py "second") 0 (by decide)).delivery.scope
        (trace deploymentRuntime .default
          [deployment (py "first") 0 (by decide), deployment (py "second") 0 (by decide)]) ≠
      outcomesOf (deployment (py "second") 0 (by decide)).delivery.scope
        (trace deploymentRuntime .default
          (callsOf (deployment (py "second") 0 (by decide)).delivery.scope
            [deployment (py "first") 0 (by decide), deployment (py "second") 0 (by decide)])) ∧
    outcomesOf (deployment (py "second") 0 (by decide)).delivery.scope
        (trace deploymentRuntime .default
          [deployment (py "second") 0 (by decide), laterDeployment (py "first"),
            deployment (py "second") 0 (by decide)]) ≠
      outcomesOf (deployment (py "second") 0 (by decide)).delivery.scope
        (trace deploymentRuntime .default
          (callsOf (deployment (py "second") 0 (by decide)).delivery.scope
            [deployment (py "second") 0 (by decide), laterDeployment (py "first"),
              deployment (py "second") 0 (by decide)])) := by
  constructor
  · intro h
    have haccepted := congrArg (List.map (fun r => r.isOk)) h
    revert haccepted
    decide +kernel
  · intro h
    have haccepted := congrArg (List.map (fun r => r.isOk)) h
    revert haccepted
    decide +kernel

end Lyte
