import Lyte.Connectors.StrictJson
import Lyte.Persistence.Restore

/-
  Lyte.Persistence.CanonicalLines — what the digest of a table is taken of.

  A table is digested as the lines of its rows, one ASCII JSON text and a line
  feed each.  The lines lose nothing: the text of a string is read back as that
  string, so a text is read back as its value, and the line feed stops it.

      canonicalLines_inj   lists of values with the same lines are the same list
-/

namespace Lyte

open Transact

/-! ## §1. String literals in ASCII. -/

theorem hexValue_hexDigit : ∀ n < 16, hexValue? (hexDigit n) = some n := by decide

/-- `%04x` is read back. -/
theorem hex4_hexDigit {n : Nat} (h : n < 65536) :
    hex4? (hexDigit (n / 4096 % 16)) (hexDigit (n / 256 % 16)) (hexDigit (n / 16 % 16))
      (hexDigit (n % 16)) = some n := by
  unfold hex4?
  rw [hexValue_hexDigit _ (by omega), hexValue_hexDigit _ (by omega),
    hexValue_hexDigit _ (by omega), hexValue_hexDigit _ (by omega)]
  show some (((n / 4096 % 16 * 16 + n / 256 % 16) * 16 + n / 16 % 16) * 16 + n % 16) = some n
  congr 1
  omega

/-- A character that is not the low half of a pair is pushed as it is. -/
theorem pushEscaped_single {afterHigh : Bool} {c : Nat} (acc : PyStr)
    (h : afterHigh = true → isLowSurrogate c = false) :
    pushEscaped afterHigh c acc = c :: acc := by
  cases acc with
  | nil => rfl
  | cons hi acc =>
    unfold pushEscaped
    cases afterHigh with
    | false => rfl
    | true =>
      rw [h rfl]
      rfl

theorem isHighSurrogate_small {c : Nat} (h : c < 0xD800) : isHighSurrogate c = false := by
  unfold isHighSurrogate
  rw [Bool.and_eq_false_iff, decide_eq_false_iff_not]
  exact .inl (by omega)

/-- One escape of six characters, whatever precedes it. -/
theorem scanString_hex4 {c : Nat} (h : c < 65536) (rest acc : PyStr) (afterHigh : Bool) :
    scanString ([92, 117] ++ hex4 c ++ rest) afterHigh acc
      = scanString rest (isHighSurrogate c) (pushEscaped afterHigh c acc) :=
  scanString_unicode (hex4_hexDigit h) rest acc afterHigh

/-- **An ASCII escape is read as the character that it is for**, unless it would join the
high surrogate before it. -/
theorem scanString_escapeAscii {c : Nat} (hc : c ≤ 0x10FFFF) (rest acc : PyStr)
    {afterHigh : Bool} (hjoin : afterHigh = true → isLowSurrogate c = false) :
    scanString (escapeAscii c ++ rest) afterHigh acc
      = scanString rest (isHighSurrogate c) (c :: acc) := by
  have hshort : ∀ {e x : Nat}, e ≠ 117 → escaped? e = some x → c = x → c < 0xD800 →
      scanString ([92, e] ++ rest) afterHigh acc
        = scanString rest (isHighSurrogate c) (c :: acc) := by
    intro e x he hx hcx hsmall
    rw [isHighSurrogate_small hsmall, hcx]
    exact scanString_short he hx rest acc afterHigh
  unfold escapeAscii
  split
  · next h => exact hshort (by decide) rfl h (by omega)
  split
  · next h => exact hshort (by decide) rfl h (by omega)
  split
  · next h => exact hshort (by decide) rfl h (by omega)
  split
  · next h => exact hshort (by decide) rfl h (by omega)
  split
  · next h => exact hshort (by decide) rfl h (by omega)
  split
  · next h => exact hshort (by decide) rfl h (by omega)
  split
  · next h => exact hshort (by decide) rfl h (by omega)
  split
  · next h34 h92 _ _ _ _ _ hplain =>
    rw [isHighSurrogate_small (by omega)]
    exact scanString_plain h34 h92 (by omega) rest acc afterHigh
  split
  · next h =>
    rw [scanString_hex4 h, pushEscaped_single acc hjoin]
  · next h =>
    -- beyond U+FFFF: the first escape is a high surrogate, and the second one joins it
    have hhi : isHighSurrogate (0xD800 + (c - 65536) / 1024 % 1024) = true := by
      unfold isHighSurrogate
      rw [Bool.and_eq_true, decide_eq_true_eq, decide_eq_true_eq]
      omega
    have hhilow : isLowSurrogate (0xD800 + (c - 65536) / 1024 % 1024) = false := by
      unfold isLowSurrogate
      rw [Bool.and_eq_false_iff, decide_eq_false_iff_not]
      exact .inl (by omega)
    have hlow : isLowSurrogate (0xDC00 + (c - 65536) % 1024) = true := by
      unfold isLowSurrogate
      rw [Bool.and_eq_true, decide_eq_true_eq, decide_eq_true_eq]
      omega
    have hlowhi : isHighSurrogate (0xDC00 + (c - 65536) % 1024) = false := by
      unfold isHighSurrogate
      rw [Bool.and_eq_false_iff, decide_eq_false_iff_not, decide_eq_false_iff_not]
      exact .inr (by omega)
    have hchigh : isHighSurrogate c = false := by
      unfold isHighSurrogate
      rw [Bool.and_eq_false_iff, decide_eq_false_iff_not, decide_eq_false_iff_not]
      exact .inr (by omega)
    have hpair : joinSurrogates (0xD800 + (c - 65536) / 1024 % 1024)
        (0xDC00 + (c - 65536) % 1024) = c := by
      unfold joinSurrogates
      omega
    show scanString (([92, 117] ++ hex4 (0xD800 + (c - 65536) / 1024 % 1024) ++ [92, 117] ++
      hex4 (0xDC00 + (c - 65536) % 1024)) ++ rest) afterHigh acc = _
    rw [List.append_assoc, List.append_assoc, ← List.append_assoc [92, 117],
      scanString_hex4 (by omega), pushEscaped_single acc (fun _ => hhilow), hhi, scanString_hex4 (by omega), hlowhi, hchigh]
    simp only [pushEscaped, hlow, Bool.and_true, if_true, hpair]

theorem joined_cons {c : Nat} {s : PyStr} (h : joined (c :: s) = true) :
    c ≤ 0x10FFFF ∧ joined s = true ∧
      (isHighSurrogate c = true → ∀ d, s.head? = some d → isLowSurrogate d = false) := by
  cases s with
  | nil =>
    exact ⟨of_decide_eq_true h, rfl, fun _ d hd => by cases hd⟩
  | cons d s =>
    rw [joined, Bool.and_eq_true, Bool.and_eq_true, decide_eq_true_eq, Bool.not_eq_true'] at h
    refine ⟨h.1.1, h.2, fun hhigh e he => ?_⟩
    cases he
    have hpair := h.1.2
    rwa [hhigh, Bool.true_and] at hpair

/-- A literal is read back, from any state that its first character does not join. -/
theorem scanString_quoteAscii (s rest acc : PyStr) {afterHigh : Bool} (hs : joined s = true)
    (hjoin : afterHigh = true → ∀ c, s.head? = some c → isLowSurrogate c = false) :
    scanString (s.flatMap escapeAscii ++ 34 :: rest) afterHigh acc
      = some (acc.reverse ++ s, rest) := by
  induction s generalizing acc afterHigh with
  | nil =>
    rw [List.flatMap_nil, List.nil_append, List.append_nil, scanString.eq_def]
    rfl
  | cons c s ih =>
    obtain ⟨hc, hrest, hnext⟩ := joined_cons hs
    rw [List.flatMap_cons, List.append_assoc,
      scanString_escapeAscii hc _ _ (fun h => hjoin h c rfl), ih (c :: acc) hrest hnext,
      List.reverse_cons, List.append_assoc]
    rfl

/-- `ensure_ascii=True` writes the strings of a driver so that they are read back. -/
theorem quoting_quoteAscii : Quoting quoteAscii joined := by
  constructor
  intro s hs
  refine ⟨s.flatMap escapeAscii ++ [34], rfl, fun rest => ?_⟩
  rw [List.append_assoc]
  exact scanString_quoteAscii s rest [] hs (fun h => by cases h)

theorem hexDigit_ascii {n : Nat} (h : n < 16) : 32 ≤ hexDigit n ∧ hexDigit n < 128 :=
  (show ∀ n < 16, 32 ≤ hexDigit n ∧ hexDigit n < 128 by decide) n h

theorem hex4_ascii (n : Nat) : ∀ x ∈ hex4 n, 32 ≤ x ∧ x < 128 := by
  intro x hx
  unfold hex4 at hx
  simp only [List.mem_cons, List.not_mem_nil, or_false] at hx
  rcases hx with rfl | rfl | rfl | rfl
  · exact hexDigit_ascii (by omega)
  · exact hexDigit_ascii (by omega)
  · exact hexDigit_ascii (by omega)
  · exact hexDigit_ascii (by omega)

theorem escapeAscii_ascii (c : Nat) : ∀ x ∈ escapeAscii c, 32 ≤ x ∧ x < 128 := by
  by_cases hsmall : c < 127
  · exact (show ∀ c < 127, ∀ x ∈ escapeAscii c, 32 ≤ x ∧ x < 128 by decide) c hsmall
  · have hpre : ∀ x ∈ [92, 117], 32 ≤ x ∧ x < 128 := by decide
    intro x hx
    unfold escapeAscii at hx
    rw [if_neg (by omega), if_neg (by omega), if_neg (by omega), if_neg (by omega),
      if_neg (by omega), if_neg (by omega), if_neg (by omega), if_neg (by omega)] at hx
    split at hx
    · rcases List.mem_append.mp hx with hx | hx
      · exact hpre x hx
      · exact hex4_ascii c x hx
    · simp only [List.mem_append] at hx
      rcases hx with ((hx | hx) | hx) | hx
      · exact hpre x hx
      · exact hex4_ascii _ x hx
      · exact hpre x hx
      · exact hex4_ascii _ x hx

theorem quoteAscii_all {p : Nat → Bool} (hp : ∀ c, 32 ≤ c → c < 128 → p c = true) (s : PyStr) :
    (quoteAscii s).all p = true := by
  refine all_ascii hp (fun x hx => ?_)
  unfold quoteAscii at hx
  simp only [List.mem_append, List.mem_flatMap, List.mem_singleton] at hx
  rcases hx with (rfl | ⟨c, _, hx⟩) | rfl
  · decide
  · exact escapeAscii_ascii c x hx
  · decide

/-! ## §2. The text of a value. -/

section Lines

variable {rt : Interpreter}

/-- The line of a value. -/
def lineText (rt : Runtime) (v : Json) : PyStr := v.renderWith rt quoteAscii ++ [10]

/-- **A line is read back as its value**, whatever follows it. -/
theorem line_inj (hrepr : ReprRoundTrip rt) {v w : Json} (hv : v.Writable joined)
    (hw : w.Writable joined) {rest rest' : PyStr}
    (h : lineText rt.toRuntime v ++ rest = lineText rt.toRuntime w ++ rest') :
    v.canonical = w.canonical ∧ rest = rest' := by
  obtain ⟨n, hn⟩ := exists_fits v
  obtain ⟨k, hk⟩ := exists_fits w
  have hstops : ∀ r : PyStr, Stops (10 :: r) := by
    intro r c hc
    cases hc
    decide
  have hread := scanValue_render [] quoting_quoteAscii hrepr v hv
    (2 * (v.renderWith rt.toRuntime quoteAscii).length +
      2 * (w.renderWith rt.toRuntime quoteAscii).length + 1) (n + k) (10 :: rest)
    (hn _ (by omega)) (by omega) (hstops rest)
  have hread' := scanValue_render [] quoting_quoteAscii hrepr w hw
    (2 * (v.renderWith rt.toRuntime quoteAscii).length +
      2 * (w.renderWith rt.toRuntime quoteAscii).length + 1) (n + k) (10 :: rest')
    (hk _ (by omega)) (by omega) (hstops rest')
  have htext : v.renderWith rt.toRuntime quoteAscii ++ 10 :: rest
      = w.renderWith rt.toRuntime quoteAscii ++ 10 :: rest' := by
    unfold lineText at h
    rw [List.append_assoc, List.append_assoc] at h
    exact h
  rw [htext, hread'] at hread
  simp only [Except.ok.injEq, Prod.mk.injEq, List.cons.injEq, true_and] at hread
  exact ⟨hread.1.symm, hread.2.symm⟩

theorem lines_inj (hrepr : ReprRoundTrip rt) {vs ws : List Json}
    (hvs : ∀ v ∈ vs, v.Writable joined) (hws : ∀ w ∈ ws, w.Writable joined)
    (h : vs.flatMap (lineText rt.toRuntime) = ws.flatMap (lineText rt.toRuntime)) :
    vs.map Json.canonical = ws.map Json.canonical := by
  have hne : ∀ (v : Json) (rest : PyStr), lineText rt.toRuntime v ++ rest ≠ [] := by
    intro v rest hnil
    unfold lineText at hnil
    have hlength := congrArg List.length hnil
    simp only [List.length_append, List.length_cons, List.length_nil] at hlength
    omega
  induction vs generalizing ws with
  | nil =>
    cases ws with
    | nil => rfl
    | cons w ws => exact absurd h.symm (hne w _)
  | cons v vs ih =>
    cases ws with
    | nil => exact absurd h (hne v _)
    | cons w ws =>
      rw [List.flatMap_cons, List.flatMap_cons] at h
      obtain ⟨hcanonical, hrest⟩ :=
        line_inj hrepr (hvs v List.mem_cons_self) (hws w List.mem_cons_self) h
      rw [List.map_cons, List.map_cons, hcanonical,
        ih (fun x hx => hvs x (List.mem_cons_of_mem _ hx))
          (fun x hx => hws x (List.mem_cons_of_mem _ hx)) hrest]

/-- What `canonical` returns. -/
theorem canonicalLine_ok {rt : Runtime} {v : Json} {bytes : List UInt8}
    (h : canonicalLine rt v = .ok bytes) :
    v.encodable = true ∧ bytes = (lineText rt v).flatMap utf8Bytes := by
  unfold canonicalLine at h
  obtain ⟨text, htext, h⟩ := ok_of_bind h
  unfold asciiJson at htext
  split at htext
  · next hv =>
    cases htext
    refine ⟨hv, ?_⟩
    unfold utf8Encode at h
    split at h
    · next b hb =>
      split at hb
      · cases hb
      · cases hb
        cases h
        rfl
    · cases h
  · cases htext

theorem lineText_inRange (hrepr : ReprRoundTrip rt) {v : Json} (hv : v.encodable = true)
    (hs : v.allStrings joined = true) : inRange (lineText rt.toRuntime v) = true := by
  have hp : ∀ c, 32 ≤ c → c < 128 → decide (c ≤ 0x10FFFF) = true :=
    fun c _ hc => decide_eq_true (by omega)
  have hbody := render_all hrepr hp (q := fun _ => true) (fun s => quoteAscii_all hp s) v hv
  rw [allStrings_mono (fun _ _ => rfl) v hs] at hbody
  unfold inRange lineText
  rw [List.all_append, hbody]
  rfl

/-- **The bytes of a table determine its values.** -/
theorem canonicalLines_inj (hrepr : ReprRoundTrip rt) {vs ws : List Json}
    {bs cs : List (List UInt8)}
    (hvs : ∀ v ∈ vs, v.nodupKeys = true ∧ v.allStrings joined = true)
    (hws : ∀ w ∈ ws, w.nodupKeys = true ∧ w.allStrings joined = true)
    (hb : vs.mapM (canonicalLine rt.toRuntime) = .ok bs)
    (hc : ws.mapM (canonicalLine rt.toRuntime) = .ok cs) (h : bs.flatten = cs.flatten) :
    vs.map Json.canonical = ws.map Json.canonical := by
  have hlines : ∀ {us : List Json} {ds : List (List UInt8)},
      (∀ u ∈ us, u.nodupKeys = true ∧ u.allStrings joined = true) →
        us.mapM (canonicalLine rt.toRuntime) = .ok ds →
          (∀ u ∈ us, u.Writable joined) ∧
            ds.flatten = (us.flatMap (lineText rt.toRuntime)).flatMap utf8Bytes ∧
            inRange (us.flatMap (lineText rt.toRuntime)) = true := by
    intro us ds hus hds
    induction us generalizing ds with
    | nil =>
      cases hds
      exact ⟨fun u hu => (List.not_mem_nil hu).elim, rfl, rfl⟩
    | cons u us ih =>
      rw [List.mapM_cons] at hds
      obtain ⟨bytes, hbytes, hds⟩ := ok_of_bind hds
      obtain ⟨ds', hds', hds⟩ := ok_of_bind hds
      cases hds
      obtain ⟨henc, hline⟩ := canonicalLine_ok hbytes
      obtain ⟨hwritable, hflat, hrange⟩ :=
        ih (fun x hx => hus x (List.mem_cons_of_mem _ hx)) hds'
      obtain ⟨hnodup, hstrings⟩ := hus u List.mem_cons_self
      refine ⟨fun x hx => ?_, ?_, ?_⟩
      · rcases List.mem_cons.mp hx with rfl | hx
        · exact ⟨henc, hnodup, hstrings⟩
        · exact hwritable x hx
      · rw [List.flatten_cons, List.flatMap_cons, List.flatMap_append, hflat, hline]
      · rw [List.flatMap_cons]
        unfold inRange at hrange ⊢
        rw [List.all_append, hrange, Bool.and_true]
        exact lineText_inRange hrepr henc hstrings
  obtain ⟨hv, hbflat, hbrange⟩ := hlines hvs hb
  obtain ⟨hw, hcflat, hcrange⟩ := hlines hws hc
  rw [hbflat, hcflat] at h
  have htext := decodeUtf8_utf8Encode hbrange
  rw [h, decodeUtf8_utf8Encode hcrange] at htext
  exact lines_inj hrepr hv hw (Option.some.inj htext).symm

end Lines

end Lyte
