import Mathlib.Algebra.Order.Floor.Ring
import Mathlib.Data.Rat.Floor
import Mathlib.Tactic.Linarith
import Lyte.Connectors.WebhookContract

/-
  Lyte.Connectors.WebhookReplay — no signed message is accepted twice.

  Two accepted calls that carry the same bytes `timestamp.nonce.body` split them
  in the same way: the timestamp ends at the first dot, and were one nonce
  longer than the other, the body behind the shorter one would begin with a
  character of the longer one, which begins no JSON object (`split_unique`).

  So the second call presents the nonce of the first.  Both clocks are within
  the skew of one timestamp, hence less than 602 seconds apart, and the nonce is
  kept for 900 (`still_kept`): the registry still holds it.
-/

namespace Lyte

open Transact Expiring

/-! ## §1. The signed bytes determine their parts. -/

/-- The bytes that are signed. -/
def signedInput (d : Delivery) : List UInt8 :=
  d.timestamp.map Nat.toUInt8 ++ 46 :: (d.nonce.map Nat.toUInt8 ++ 46 :: d.body)

/-- What stands before the first separator. -/
theorem append_separator {α : Type} {sep : α} {xs ys rest rest' : List α} (hx : sep ∉ xs)
    (hy : sep ∉ ys) (h : xs ++ sep :: rest = ys ++ sep :: rest') : xs = ys ∧ rest = rest' := by
  induction xs generalizing ys with
  | nil =>
    cases ys with
    | nil =>
      cases h
      exact ⟨rfl, rfl⟩
    | cons y ys =>
      cases h
      exact absurd List.mem_cons_self hy
  | cons x xs ih =>
    cases ys with
    | nil =>
      cases h
      exact absurd List.mem_cons_self hx
    | cons y ys =>
      obtain ⟨rfl, htail⟩ := List.cons.inj h
      obtain ⟨rfl, hrest⟩ := ih (fun hm => hx (List.mem_cons_of_mem _ hm))
        (fun hm => hy (List.mem_cons_of_mem _ hm)) htail
      exact ⟨rfl, hrest⟩

theorem toUInt8_toNat {c : Nat} (h : c < 128) : c.toUInt8.toNat = c :=
  UInt8.toNat_ofNat_of_lt' (Nat.lt_trans h (by decide))

theorem map_toUInt8_inj {s t : PyStr} (hs : ∀ c ∈ s, c < 128) (ht : ∀ c ∈ t, c < 128)
    (h : s.map Nat.toUInt8 = t.map Nat.toUInt8) : s = t := by
  have hback : ∀ {r : PyStr}, (∀ c ∈ r, c < 128) → (r.map Nat.toUInt8).map UInt8.toNat = r := by
    intro r hr
    rw [List.map_map]
    exact (List.map_congr_left (g := id) (fun c hc => toUInt8_toNat (hr c hc))).trans
      (List.map_id r)
  rw [← hback hs, h, hback ht]

/-- A body that holds an object does not begin with a character of a name. -/
theorem body_head {rt : Interpreter} {b : UInt8} {bytes : List UInt8} {maxBytes : Nat}
    {path : PyStr} {fields : List (PyStr × Json)} (hb : isSafeChar b.toNat = true)
    (h : strictJsonLoads rt (b :: bytes) maxBytes path = .ok (.dict fields)) : False := by
  have hload : loads rt path (b :: bytes) = .ok (.dict fields) := by
    unfold strictJsonLoads at h
    split at h
    · cases h
    split at h
    · cases h
    split at h
    · cases h
    · cases h
    · cases h
    · next decoded hdecoded =>
      obtain ⟨_, _, h⟩ := ok_of_bind h
      cases h
      exact hdecoded
  have hascii := isSafeChar_ascii hb
  have hne : ∀ n, isSafeChar n = false → b.toNat ≠ n := by
    intro n hn he
    rw [he, hn] at hb
    cases hb
  rcases loads_object_head rt path (hne 0 (by decide)) hascii hload with h123 | hspace
  · exact hne 123 (by decide) h123
  · simp only [isJsonSpace, Bool.or_eq_true, beq_iff_eq] at hspace
    rcases hspace with ((h32 | h9) | h10) | h13
    · exact hne 32 (by decide) h32
    · exact hne 9 (by decide) h9
    · exact hne 10 (by decide) h10
    · exact hne 13 (by decide) h13

/-- Digits, and no dot among them. -/
theorem timestamp_digits {n : Int} (h : 0 ≤ n) : ∀ c ∈ decimalInt n, 48 ≤ c ∧ c ≤ 57 := by
  obtain ⟨n, rfl⟩ := Int.eq_ofNat_of_zero_le h
  intro c hc
  obtain ⟨x, hx, rfl⟩ := List.mem_map.mp hc
  have hdigit := Nat.isDigit_of_mem_toDigits (by decide) (by decide) hx
  rw [Char.isDigit, Bool.and_eq_true, decide_eq_true_eq, decide_eq_true_eq] at hdigit
  exact ⟨hdigit.1, hdigit.2⟩

/-- What a timestamp that passed the checks is. -/
theorem checkTimestamp_ok {rt : Interpreter} {v : GovernedEventVerifier} {timestamp : PyStr}
    {current : Rat} (h : checkTimestamp rt v timestamp current = .ok ()) :
    ∃ n, rt.intOfStr timestamp = some n ∧ decimalInt n = timestamp ∧ 0 ≤ n ∧
      n < 2 ^ 1024 - 2 ^ 970 ∧
      |rt.toDouble (current - rt.toDouble n)| ≤ (v.maxTimestampSkewSeconds : Rat) := by
  unfold checkTimestamp at h
  cases hn : rt.intOfStr timestamp with
  | none =>
    rw [hn] at h
    cases h
  | some n =>
    rw [hn] at h
    simp only at h
    by_cases hcanon : decimalInt n ≠ timestamp ∨ n < 0
    · rw [if_pos hcanon] at h
      cases h
    rw [if_neg hcanon] at h
    have heq : decimalInt n = timestamp := by
      by_contra hne
      exact hcanon (.inl hne)
    have hpos : 0 ≤ n := Int.not_lt.mp (fun hlt => hcanon (.inr hlt))
    obtain ⟨signedAt, hfloat, h⟩ := ok_of_bind h
    obtain ⟨hskew, _⟩ := ok_of_guard h
    unfold floatOfInt at hfloat
    by_cases hbig : 2 ^ 1024 - 2 ^ 970 ≤ n
    · rw [if_pos hbig] at hfloat
      cases hfloat
    rw [if_neg hbig] at hfloat
    cases hfloat
    exact ⟨n, rfl, heq, hpos, Int.not_le.mp hbig, not_lt.mp hskew⟩

/-- Two splits of the same bytes agree, if one nonce is not longer. -/
theorem split_nonce {nonce nonce' : PyStr} {body body' : List UInt8}
    (hnonce' : isNonce nonce' = true)
    (hbody : ∀ b bytes, body = b :: bytes → isSafeChar b.toNat = true → False)
    (hlen : nonce.length ≤ nonce'.length)
    (h : nonce.map Nat.toUInt8 ++ 46 :: body = nonce'.map Nat.toUInt8 ++ 46 :: body') :
    nonce.map Nat.toUInt8 = nonce'.map Nat.toUInt8 := by
  rcases List.append_eq_append_iff.mp h with ⟨w, hw, hrest⟩ | ⟨w, hw, _⟩
  · cases w with
    | nil => rw [hw, List.append_nil]
    | cons x w =>
      -- the longer nonce goes on behind a dot: the body begins within it
      exfalso
      obtain ⟨hx, hbody'⟩ := List.cons.inj hrest
      cases w with
      | nil => exact hbody 46 _ hbody' (by decide)
      | cons y w =>
        refine hbody y _ hbody' ?_
        have hmem : y ∈ nonce'.map Nat.toUInt8 := by
          rw [hw]
          exact List.mem_append_right _ (List.mem_cons_of_mem _ List.mem_cons_self)
        obtain ⟨c, hc, rfl⟩ := List.mem_map.mp hmem
        have hsafe := isSafeName_chars hnonce' c hc
        rw [toUInt8_toNat (isSafeChar_ascii hsafe)]
        exact hsafe
  · have hlen' : (nonce.map Nat.toUInt8).length = (nonce'.map Nat.toUInt8 ++ w).length := by rw [hw]
    rw [List.length_append, List.length_map, List.length_map] at hlen'
    have hnil : w = [] := List.eq_nil_of_length_eq_zero (by omega)
    rw [hw, hnil, List.append_nil]

/-- **The signed bytes determine the timestamp and the nonce** of an admitted
delivery. -/
theorem split_unique {rt : Interpreter} {v v' : GovernedEventVerifier} {d d' : Delivery}
    {offset offset' : Int} {a a' : Admission} (ha : Admits rt v d offset a)
    (ha' : Admits rt v' d' offset' a') (h : signedInput d = signedInput d') :
    d.timestamp = d'.timestamp ∧ d.nonce = d'.nonce := by
  have hdigits : ∀ {v : GovernedEventVerifier} {d : Delivery} {offset : Int} {a : Admission},
      Admits rt v d offset a → ∀ c ∈ d.timestamp, 48 ≤ c ∧ c ≤ 57 := by
    intro v d offset a ha
    obtain ⟨n, _, heq, hpos, _⟩ := checkTimestamp_ok ha.timestamp
    rw [← heq]
    exact timestamp_digits hpos
  have hdot : ∀ {s : PyStr}, (∀ c ∈ s, 48 ≤ c ∧ c ≤ 57) → (46 : UInt8) ∉ s.map Nat.toUInt8 := by
    intro s hs hmem
    obtain ⟨c, hc, heq⟩ := List.mem_map.mp hmem
    have hrange := hs c hc
    have hval := congrArg UInt8.toNat heq
    rw [toUInt8_toNat (by omega)] at hval
    have h46 : (46 : UInt8).toNat = 46 := rfl
    omega
  have hhead : ∀ {v : GovernedEventVerifier} {d : Delivery} {offset : Int} {a : Admission},
      Admits rt v d offset a → ∀ b bytes, d.body = b :: bytes → isSafeChar b.toNat = true → False := by
    intro v d offset a ha b bytes hbytes hsafe
    obtain ⟨decoded, hload, hevent⟩ := ha.body
    obtain ⟨⟨fields, rfl⟩, _⟩ := parseEvent_ok hevent
    rw [hbytes] at hload
    exact body_head hsafe hload
  obtain ⟨htime, hrest⟩ := append_separator (hdot (hdigits ha)) (hdot (hdigits ha')) h
  have htime' := map_toUInt8_inj (fun c hc => by have := hdigits ha c hc; omega)
    (fun c hc => by have := hdigits ha' c hc; omega) htime
  refine ⟨htime', ?_⟩
  have hascii : ∀ {s : PyStr}, isNonce s = true → ∀ c ∈ s, c < 128 :=
    fun hs c hc => isSafeChar_ascii (isSafeName_chars hs c hc)
  refine map_toUInt8_inj (hascii ha.nonce) (hascii ha'.nonce) ?_
  rcases Nat.le_total d.nonce.length d'.nonce.length with hlen | hlen
  · exact split_nonce ha'.nonce (hhead ha) hlen hrest
  · exact (split_nonce ha.nonce (hhead ha') hlen hrest.symm).symm

/-! ## §2. The nonce outlives the skew. -/

/-- A reading of the clock, in whole seconds, is a number that a float holds. -/
theorem timestamp_bounds (rt : Interpreter) (d : Delivery) {offset : Int}
    (hnow : d.now.offset = some offset) :
    -2 ^ 40 ≤ rt.timestamp d.now offset ∧ rt.timestamp d.now offset ≤ 2 ^ 40 := by
  obtain ⟨hlo, hhi, hoff⟩ := d.now_range
  obtain ⟨holo, hohi⟩ := hoff offset hnow
  simp only [maxMicros] at hhi
  have hlow : ((-2 ^ 40 : Int) : Rat) ≤
      mkRat (d.now.wall - offset - epochMicros) 1000000 := by
    rw [Rat.mkRat_eq_div, le_div_iff₀ (by norm_num)]
    have h : -2 ^ 40 * 1000000 ≤ d.now.wall - offset - epochMicros := by
      simp only [epochMicros]
      omega
    exact_mod_cast h
  have hhigh : mkRat (d.now.wall - offset - epochMicros) 1000000 ≤ ((2 ^ 40 : Int) : Rat) := by
    rw [Rat.mkRat_eq_div, div_le_iff₀ (by norm_num)]
    have h : d.now.wall - offset - epochMicros ≤ 2 ^ 40 * 1000000 := by
      simp only [epochMicros]
      omega
    exact_mod_cast h
  constructor
  · have h := rt.toDouble_mono _ _ hlow
    rw [rt.toDouble_int _ (by decide)] at h
    exact_mod_cast h
  · have h := rt.toDouble_mono _ _ hhigh
    rw [rt.toDouble_int _ (by decide)] at h
    exact_mod_cast h

/-- Rounding does not carry a difference over a whole number of seconds. -/
theorem within_skew (rt : Interpreter) {x : Rat} (h : |rt.toDouble x| ≤ 300) : -301 < x ∧ x < 301 := by
  have habs := abs_le.mp h
  have hint : ∀ n : Int, n.natAbs ≤ 2 ^ 53 → rt.toDouble n = n := rt.toDouble_int
  constructor
  · by_contra hx
    have hle := rt.toDouble_mono x ((-301 : Int) : Rat) (by push_cast; linarith)
    rw [hint _ (by decide)] at hle
    push_cast at hle
    linarith
  · by_contra hx
    have hle := rt.toDouble_mono ((301 : Int) : Rat) x (by push_cast; linarith)
    rw [hint _ (by decide)] at hle
    push_cast at hle
    linarith

/-- **A nonce registered at one clock is still kept at another** within the skew
of the same timestamp. -/
theorem still_kept (rt : Interpreter) {c c' m : Rat} (hlo : -2 ^ 40 ≤ c) (hhi : c ≤ 2 ^ 40)
    (h : |rt.toDouble (c - m)| ≤ 300) (h' : |rt.toDouble (c' - m)| ≤ 300) :
    c' < rt.toDouble (c + (900 : Nat)) := by
  obtain ⟨h₁, _⟩ := within_skew rt h
  obtain ⟨_, h₂⟩ := within_skew rt h'
  have hfloor := Int.floor_le c
  have hfloor' := Int.lt_floor_add_one c
  have hle : ((⌊c⌋ + 900 : Int) : Rat) ≤ c + (900 : Nat) := by
    push_cast
    linarith
  have hmono := rt.toDouble_mono _ _ hle
  have hlo' : -2 ^ 40 ≤ ⌊c⌋ := Int.le_floor.mpr (by exact_mod_cast hlo)
  have hhi' : ⌊c⌋ ≤ 2 ^ 40 := by
    have : (⌊c⌋ : Rat) ≤ 2 ^ 40 := le_trans hfloor hhi
    exact_mod_cast this
  rw [rt.toDouble_int _ (by omega)] at hmono
  push_cast at hmono ⊢
  linarith

/-! ## §3. Runs. -/

/-- A nonce that is registered stays registered until it expires. -/
theorem nonce_kept (rt : Interpreter) (v : GovernedEventVerifier) {reg : ReplayProtector}
    {d : Delivery} {nonce : PyStr} {expires : Rat}
    (h : reg.nonces.get? nonce = some ((), expires))
    (hlive : ∀ offset, d.now.offset = some offset → rt.timestamp d.now offset < expires) :
    (verify rt v reg d).2.nonces.get? nonce = some ((), expires) := by
  have hspec := verify_spec rt v reg d
  generalize (verify rt v reg d).1 = r at hspec
  generalize (verify rt v reg d).2 = reg' at hspec
  cases hspec with
  | refused e _ => exact h
  | misnamed a offset e _ _ _ => exact h
  | unregistered a offset idempotency e hnow _ _ _ _ => exact Table.get?_prune.mpr ⟨h, hlive offset hnow⟩
  | registered a offset idempotency hnow _ _ hreg =>
    have hkept : (reg.prune (rt.timestamp d.now offset)).nonces.get? nonce = some ((), expires) :=
      Table.get?_prune.mpr ⟨h, hlive offset hnow⟩
    have hne : nonce ≠ d.nonce := by
      rintro rfl
      rw [hreg.fresh] at hkept
      cases hkept
    show (Table.set _ d.nonce () _).get? nonce = _
    rw [Table.get?_set_ne hne]
    exact hkept

/-- An accepted call, and the nonce it registers. -/
theorem accepted_registers {rt : Interpreter} {v : GovernedEventVerifier} {reg : ReplayProtector}
    {d : Delivery} (h : (verify rt v reg d).1.isOk = true) :
    ∃ a offset, d.now.offset = some offset ∧ Admits rt v d offset a ∧
      (reg.nonces.prune (rt.timestamp d.now offset)).get? d.nonce = none ∧
      (verify rt v reg d).2.nonces.get? d.nonce =
        some ((), rt.toDouble (rt.timestamp d.now offset + reg.retentionSeconds)) := by
  have hspec := verify_spec rt v reg d
  generalize (verify rt v reg d).1 = r at hspec h
  generalize (verify rt v reg d).2 = reg' at hspec
  cases hspec with
  | refused e _ => cases h
  | misnamed a offset e _ _ _ => cases h
  | unregistered a offset idempotency e _ _ _ _ _ => cases h
  | registered a offset idempotency hnow ha _ hreg =>
    exact ⟨a, offset, hnow, ha, hreg.fresh, Table.get?_set_self _ _ _ _⟩

theorem verify_retention (rt : Interpreter) (v : GovernedEventVerifier) (reg : ReplayProtector)
    (d : Delivery) : (verify rt v reg d).2.retentionSeconds = reg.retentionSeconds := by
  have hspec := verify_spec rt v reg d
  generalize (verify rt v reg d).1 = r at hspec
  generalize (verify rt v reg d).2 = reg' at hspec
  cases hspec <;> rfl

/-- **A call accepted with a nonce comes no earlier than the nonce expires.** -/
theorem accepted_after_expiry (rt : Interpreter) {reg : ReplayProtector} {calls : List Call}
    {nonce : PyStr} {expires : Rat} (h : reg.nonces.get? nonce = some ((), expires))
    (hclock : ClockMonotone calls) :
    ∀ t ∈ trace rt reg calls, t.outcome.isOk = true → t.call.delivery.nonce = nonce →
      ∃ a offset, t.call.delivery.now.offset = some offset ∧
        Admits rt t.call.verifier t.call.delivery offset a ∧
        expires ≤ rt.timestamp t.call.delivery.now offset := by
  induction calls generalizing reg with
  | nil => intro t ht; cases ht
  | cons c calls ih =>
    obtain ⟨hhead, htail⟩ := List.pairwise_cons.mp hclock
    intro t ht hok hnonce
    rcases List.mem_cons.mp ht with rfl | ht
    · obtain ⟨a, offset, hnow, ha, hfresh, _⟩ := accepted_registers hok
      refine ⟨a, offset, hnow, ha, ?_⟩
      by_contra hlt
      have hkept := Table.get?_prune.mpr ⟨h, not_le.mp hlt⟩
      rw [← hnonce, hfresh] at hkept
      cases hkept
    · by_cases hlive : ∀ offset, c.delivery.now.offset = some offset →
          rt.timestamp c.delivery.now offset < expires
      · exact ih (nonce_kept rt c.verifier h hlive) htail t ht hok hnonce
      · -- it has expired by now, and the clock does not go back
        obtain ⟨hmem, houtcome⟩ := mem_trace ht
        rw [houtcome] at hok
        obtain ⟨a, offset, hnow, ha, _⟩ := accepted_registers hok
        refine ⟨a, offset, hnow, ha, ?_⟩
        by_contra hlt
        refine hlive (fun offset' hnow' => ?_)
        exact lt_of_le_of_lt (timestamp_mono rt hnow' hnow (hhead _ hmem)) (not_le.mp hlt)

theorem accepted_nodup (rt : Interpreter) (reg : ReplayProtector) (calls : List Call)
    (hret : reg.retentionSeconds = 900)
    (hskew : ∀ c ∈ calls, c.verifier.maxTimestampSkewSeconds = 300)
    (hclock : ClockMonotone calls) : ((accepted rt reg calls).map signedInput).Nodup := by
  induction calls generalizing reg with
  | nil => exact List.nodup_nil
  | cons c calls ih =>
    obtain ⟨hhead, htail⟩ := List.pairwise_cons.mp hclock
    have hrest := ih (verify rt c.verifier reg c.delivery).2
      (by rw [verify_retention, hret]) (fun c' hc' => hskew c' (List.mem_cons_of_mem _ hc')) htail
    by_cases hok : (verify rt c.verifier reg c.delivery).1.isOk = true
    · rw [accepted_cons_ok hok, List.map_cons, List.nodup_cons]
      refine ⟨fun hmem => ?_, hrest⟩
      obtain ⟨d', hd', hsame⟩ := List.mem_map.mp hmem
      obtain ⟨t, ht, hok', rfl⟩ := mem_accepted.mp hd'
      obtain ⟨hcall, houtcome⟩ := mem_trace ht
      obtain ⟨a, offset, hnow, ha, _, hkept⟩ := accepted_registers hok
      have hok'' := hok'
      rw [houtcome] at hok''
      obtain ⟨a', offset', hnow', ha', _⟩ := accepted_registers hok''
      obtain ⟨htime, hnonce⟩ := split_unique ha' ha hsame
      -- the second call comes after the nonce has expired …
      obtain ⟨_, offset'', hnow'', _, hafter⟩ :=
        accepted_after_expiry rt hkept htail t ht hok' hnonce
      obtain rfl : offset' = offset'' := Option.some.inj (hnow'.symm.trans hnow'')
      -- … but its timestamp is that of the first, which rules this out
      obtain ⟨n, hn, _, _, _, hnear⟩ := checkTimestamp_ok ha.timestamp
      obtain ⟨n', hn', _, _, _, hnear'⟩ := checkTimestamp_ok ha'.timestamp
      rw [htime] at hn'
      obtain rfl : n = n' := Option.some.inj (hn.symm.trans hn')
      rw [hskew c List.mem_cons_self] at hnear
      rw [hskew _ (List.mem_cons_of_mem _ hcall)] at hnear'
      rw [hret] at hafter
      have hbounds := timestamp_bounds rt c.delivery hnow
      exact absurd hafter (not_le.mpr
        (still_kept rt hbounds.1 hbounds.2 (by exact_mod_cast hnear) (by exact_mod_cast hnear')))
    · rw [accepted_cons_refused (Bool.not_eq_true _ ▸ hok)]
      exact hrest

/-- The signature of a delivery is that of its signed bytes. -/
theorem checkSignature_signed {rt : Interpreter} {v : GovernedEventVerifier} {d : Delivery}
    {verified : Bool} {secret : List UInt8} (hsecret : v.secret = some secret)
    (h : checkSignature rt v d = .ok verified) :
    d.signature = some (py "sha256=" ++ rt.hmacSha256 secret (signedInput d)) := by
  unfold checkSignature at h
  rw [hsecret] at h
  cases hsig : d.signature with
  | none =>
    rw [hsig] at h
    cases h
  | some signature =>
    rw [hsig] at h
    simp only at h
    split at h
    · cases h
    obtain ⟨expected, hexpected, h⟩ := ok_of_bind h
    obtain ⟨heq, _⟩ := ok_of_guard h
    unfold signGovernedEvent at hexpected
    obtain ⟨_, hexpected⟩ := ok_of_guard hexpected
    obtain ⟨timestamp, htime, hexpected⟩ := ok_of_bind hexpected
    obtain ⟨nonce, hnonce, hexpected⟩ := ok_of_bind hexpected
    have hencode : ∀ {s : PyStr} {bytes : List UInt8}, asciiEncode s = .ok bytes →
        bytes = s.map Nat.toUInt8 := by
      intro s bytes hs
      unfold asciiEncode at hs
      split at hs
      · cases hs
        rfl
      · cases hs
    cases hexpected
    rw [not_not.mp heq, hencode htime, hencode hnonce]
    simp only [signedInput, List.append_assoc, List.cons_append, List.nil_append]

/-- **No signed message is accepted twice**: what is accepted under a secret is
signed over its bytes `timestamp.nonce.body`, and no such bytes are accepted by
two calls. -/
theorem no_message_twice (rt : Interpreter) (reg : ReplayProtector) (calls : List Call)
    (hret : reg.retentionSeconds = 900)
    (hskew : ∀ c ∈ calls, c.verifier.maxTimestampSkewSeconds = 300)
    (hclock : ClockMonotone calls) :
    (∀ t ∈ trace rt reg calls, t.outcome.isOk = true → ∀ secret,
      t.call.verifier.secret = some secret → t.call.delivery.signature =
        some (py "sha256=" ++ rt.hmacSha256 secret (signedInput t.call.delivery))) ∧
      ((accepted rt reg calls).map signedInput).Nodup := by
  refine ⟨fun t ht hok secret hsecret => ?_, accepted_nodup rt reg calls hret hskew hclock⟩
  rw [(mem_trace ht).2] at hok
  obtain ⟨a, offset, _, ha, _⟩ := accepted_registers hok
  exact checkSignature_signed hsecret ha.signature

/-! ## §4. A sample run. -/

/-- The digests of a few inputs, written out. -/
def digestTable (entries : List (List UInt8 × PyStr)) (bytes : List UInt8) : PyStr :=
  (entries.lookup bytes).getD []

/-- A runtime for ASCII bodies and whole seconds. -/
def Interpreter.sample (sha256 hmac : List UInt8 → PyStr) : Interpreter where
  toRuntime := { Runtime.ascii with
    sha256 := sha256
    fromisoformat := fun s =>
      match parseIso s with
      | some micros => .ok ⟨micros, some 0⟩
      | none =>
          match parseIso (s.take (s.length - 6) ++ [90]) with
          | some micros => .ok ⟨micros, some 0⟩
          | none => .error (.valueError (py "Invalid isoformat string"))
    fromisoformat_isoText := fun t => by
      rw [parseIso_isoText t.nonneg t.le_max]
      rfl
    intOfStr := fun s => if !s.isEmpty && s.all isDigit then some (natOfDigits s) else none }
  floatOfText _ := ⟨0⟩
  strRepr s := [39] ++ s ++ [39]
  scanDepth := 1000
  walkDepth := 900
  hmacSha256 _ data := hmac data
  fromisoformat_fails s e h := by
    simp only at h
    split at h
    · cases h
    split at h
    · cases h
    · cases h
      rfl
  toDouble := id
  toDouble_mono _ _ h := h
  toDouble_int := id_exact

/-- An event about a subject of some type. -/
def eventBody (subjectType : PyStr) : List UInt8 :=
  (py "\x7b\"schema_version\":" ++ py "\"lyte.event.v1\"," ++ py "\"event_id\":" ++ py "\"event-1\"," ++
    py "\"source_id\":" ++ py "\"github\"," ++ py "\"event_type\":" ++ py "\"deploy.finished\"," ++
    py "\"subject_type\":\"" ++ subjectType ++ py "\",\"subject_id\":" ++ py "\"deployment-1\"," ++
    py "\"occurred_at\":\"" ++ py "2026-01-01" ++ py "T00:00:00Z\"," ++ py "\"truth_label\":" ++
    py "\"REPORTED\"," ++ py "\"attributes\":" ++ py "\x7b\x7d,\"evidence" ++ py "_refs\":[]\x7d").map
    Nat.toUInt8

/-- A verifier with the limits of the deployment. -/
def GovernedEventVerifier.sample : GovernedEventVerifier where
  allowedSources := [py "github"]
  secret := some ((py "lyte-webhook-" ++ py "secret-for-" ++ py "examples").map Nat.toUInt8)
  allowUnsigned := false
  maxBodyBytes := 256000
  maxTimestampSkewSeconds := 300
  sources_safe := by decide
  secret_length := by
    intro key h
    cases h
    decide
  secret_or_unsigned h := by cases h
  body_range := by decide
  skew_range := by decide

/-- A delivery that arrives some seconds after 2026-01-01T00:00:00Z. -/
def Delivery.sample (workspace : PyStr) (body : List UInt8) (timestamp nonce key signature : PyStr)
    (seconds : Nat) (h : seconds ≤ 3600) : Delivery where
  body := body
  scope := ⟨⟨py "tenant"⟩, ⟨workspace⟩⟩
  signature := some (py "sha256=" ++ signature)
  timestamp := timestamp
  nonce := nonce
  idempotencyKey := key
  now := ⟨739616 * 86400000000 + seconds * 1000000, some 0⟩
  now_range := by
    simp only [Stamp.InRange, maxMicros]
    refine ⟨by omega, by omega, fun o ho => ?_⟩
    cases ho
    decide

/-- The event that the samples deliver. -/
def deploymentBody : List UInt8 := eventBody (py "deployment")

def firstNonce : PyStr := py "nonce-01" ++ py "23456789"
def firstKey : PyStr := py "event-key" ++ py "-0123456"
def firstSignature : PyStr :=
  py "eb6b4d04b93b3ccb" ++ py "b355c32c24b7c49a" ++ py "6242fc0dab64880d" ++ py "5e0dca5e2a2a06e5"

def otherNonce : PyStr := py "nonce-98" ++ py "76543210"
def otherKey : PyStr := py "other-key" ++ py "-0123456"
def otherSignature : PyStr :=
  py "d9f84995268dda88" ++ py "8254f48ba2eade52" ++ py "c621c98ee5827bcb" ++ py "3bf81477057dd6d4"

/-- What is signed with a timestamp and a nonce. -/
def signedBytes (timestamp nonce : PyStr) (body : List UInt8) : List UInt8 :=
  timestamp.map Nat.toUInt8 ++ 46 :: (nonce.map Nat.toUInt8 ++ 46 :: body)

/-- The digests and signatures of the samples. -/
def deploymentRuntime : Interpreter :=
  .sample
    (digestTable [
      (deploymentBody, py "bade3456b9694c4d" ++ py "8edb204f3f1c8999" ++ py "13ee2e816baf6e0d" ++
        py "a49153f7b84b78da"),
      (firstKey.map Nat.toUInt8, py "1fd0a687329a7170" ++ py "9f628636d4ac768a" ++
        py "6a17867a4d7a6893" ++ py "0b633bbb218ded96"),
      (otherKey.map Nat.toUInt8, py "fc7e18f7d8cb7d33" ++ py "f176df9edd80572f" ++
        py "77f3baf7045b2d51" ++ py "c707a76683c51eb8")])
    (digestTable [
      (signedBytes (py "1767225600") firstNonce deploymentBody, firstSignature),
      (signedBytes (py "1767226600") otherNonce deploymentBody, otherSignature)])

/-- The event, signed at 00:00:00 with the first nonce, as it reaches a
workspace some seconds later. -/
def deployment (workspace : PyStr) (seconds : Nat) (h : seconds ≤ 3600) : Call where
  verifier := .sample
  delivery := .sample workspace deploymentBody (py "1767225600") firstNonce firstKey firstSignature
    seconds h

/-- The event, signed 1000 seconds later with the other nonce. -/
def laterDeployment (workspace : PyStr) : Call where
  verifier := .sample
  delivery := .sample workspace deploymentBody (py "1767226600") otherNonce otherKey otherSignature
    1000 (by decide)

/-- The same message to two workspaces, the second time at the end of its
window: only the first delivery is accepted. -/
theorem no_message_twice_sample :
    accepted deploymentRuntime .default
        [deployment (py "first") 0 (by decide), deployment (py "second") 300 (by decide)] =
      [(deployment (py "first") 0 (by decide)).delivery] ∧
    ((accepted deploymentRuntime .default
        [deployment (py "first") 0 (by decide), deployment (py "second") 300 (by decide)]).map
      signedInput).Nodup := by
  refine ⟨?_, (no_message_twice deploymentRuntime .default _ rfl ?_ ?_).2⟩
  · rw [accepted_cons_ok (by decide +kernel), accepted_cons_refused (by decide +kernel)]
    rfl
  · intro c hc
    rcases List.mem_cons.mp hc with rfl | hc
    · rfl
    · rw [List.mem_singleton.mp hc]
      rfl
  · refine List.pairwise_cons.mpr ⟨fun c hc => ?_, List.pairwise_singleton _ _⟩
    rw [List.mem_singleton.mp hc]
    decide

end Lyte
