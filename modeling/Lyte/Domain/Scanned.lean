import Lyte.Domain.RoundTrip

/-
  Lyte.Domain.Scanned — what accepted text says about its value.

  The scanner takes a text from left to right.  `ScannedAs` says what holds of any
  piece that it took: no object in it has a key twice, it nests as deep as was
  allowed, its code points are in range, and it has surrogates in its strings
  exactly if the text does not spell them in pairs (`pairedFrom`).
-/

namespace Lyte

open Transact

/-! ## §1. Surrogates in a text. -/

/-- Every surrogate of a JSON text is half of an escaped pair; `afterHigh` says that
the text follows an escaped high surrogate. -/
def pairedFrom : PyStr → Bool → Bool
  | [], afterHigh => !afterHigh
  | c :: rest, afterHigh =>
      if c = 92 then
        match rest with
        | [] => !afterHigh
        | e :: rest =>
            if e = 117 then
              match rest with
              | h1 :: h2 :: h3 :: h4 :: rest =>
                  match hex4? h1 h2 h3 h4 with
                  | none => false
                  | some x => (afterHigh == isLowSurrogate x) && pairedFrom rest (isHighSurrogate x)
              | _ => false
            else !afterHigh && pairedFrom rest false
      else (!afterHigh && !isSurrogate c) && pairedFrom rest false

/-- No code point of a string is a surrogate. -/
def noSurrogates (s : PyStr) : Bool := s.all (fun c => !isSurrogate c)

/-- Every code point of a string is at most U+10FFFF. -/
def inRange (s : PyStr) : Bool := s.all (fun c => decide (c ≤ 0x10FFFF))

theorem isSurrogate_eq (c : Nat) : isSurrogate c = (isHighSurrogate c || isLowSurrogate c) := by
  unfold isSurrogate isHighSurrogate isLowSurrogate
  rw [Bool.eq_iff_iff]
  simp only [Bool.and_eq_true, Bool.or_eq_true, decide_eq_true_eq]
  omega

theorem high_not_low {c : Nat} (h : isHighSurrogate c = true) : isLowSurrogate c = false := by
  unfold isHighSurrogate at h
  unfold isLowSurrogate
  simp only [Bool.and_eq_true, decide_eq_true_eq] at h
  simp only [Bool.and_eq_false_iff, decide_eq_false_iff_not]
  omega

/-- A pair stands for a character beyond U+FFFF. -/
theorem joinSurrogates_range {hi lo : Nat} (hhi : isHighSurrogate hi = true)
    (hlo : isLowSurrogate lo = true) :
    isSurrogate (joinSurrogates hi lo) = false ∧ joinSurrogates hi lo ≤ 0x10FFFF := by
  unfold isHighSurrogate at hhi
  unfold isLowSurrogate at hlo
  simp only [Bool.and_eq_true, decide_eq_true_eq] at hhi hlo
  unfold isSurrogate joinSurrogates
  simp only [Bool.and_eq_false_iff, decide_eq_false_iff_not]
  omega

theorem noSurrogates_of_hex {s : PyStr} (h : isSha256Hex s = true) : noSurrogates s = true := by
  unfold isSha256Hex at h
  rw [Bool.and_eq_true, List.all_eq_true] at h
  unfold noSurrogates
  rw [List.all_eq_true]
  intro c hc
  have hhex := h.2 c hc
  unfold isLowerHex at hhex
  unfold isSurrogate
  simp only [Bool.or_eq_true, Bool.and_eq_true, decide_eq_true_eq] at hhex
  simp only [Bool.not_eq_true', Bool.and_eq_false_iff, decide_eq_false_iff_not]
  omega

theorem noSurrogates_cons (c : Nat) (s : PyStr) :
    noSurrogates (c :: s) = (!isSurrogate c && noSurrogates s) := by
  unfold noSurrogates
  rw [List.all_cons]

theorem noSurrogates_reverse (s : PyStr) : noSurrogates s.reverse = noSurrogates s := by
  unfold noSurrogates
  rw [List.all_reverse]

theorem escaped_range {e x : Nat} (h : escaped? e = some x) : x ≤ 92 := by
  unfold escaped? at h
  split at h
  · cases h
    decide
  split at h
  · cases h
    decide
  split at h
  · cases h
    decide
  split at h
  · cases h
    decide
  split at h
  · cases h
    decide
  split at h
  · cases h
    decide
  split at h
  · cases h
    decide
  split at h
  · cases h
    decide
  · cases h

theorem hexValue_range {c x : Nat} (h : hexValue? c = some x) : x < 16 := by
  unfold hexValue? at h
  split at h
  · next hc =>
    simp only [Bool.and_eq_true, decide_eq_true_eq] at hc
    cases h
    omega
  split at h
  · next hc =>
    simp only [Bool.and_eq_true, decide_eq_true_eq] at hc
    cases h
    omega
  split at h
  · next hc =>
    simp only [Bool.and_eq_true, decide_eq_true_eq] at hc
    cases h
    omega
  · cases h

theorem hex4_range {a b c d x : Nat} (h : hex4? a b c d = some x) : x < 65536 := by
  unfold hex4? at h
  simp only [Option.bind_eq_bind, Option.bind_eq_some_iff] at h
  obtain ⟨a', ha, b', hb, c', hc, d', hd, h⟩ := h
  cases h
  have hra := hexValue_range ha
  have hrb := hexValue_range hb
  have hrc := hexValue_range hc
  have hrd := hexValue_range hd
  omega

/-- What is kept of the string so far while an escaped high surrogate waits for its
other half. -/
def settled (afterHigh : Bool) (acc : PyStr) : PyStr := if afterHigh then acc.tail else acc

/-- The string so far ends in the escaped high surrogate. -/
def EndsHigh (afterHigh : Bool) (acc : PyStr) : Prop :=
  afterHigh = true → ∃ hi base, acc = hi :: base ∧ isHighSurrogate hi = true

theorem EndsHigh.left {afterHigh : Bool} {acc : PyStr} (h : EndsHigh afterHigh acc)
    (hhigh : afterHigh = true) : noSurrogates acc = false := by
  obtain ⟨hi, base, rfl, hhi⟩ := h hhigh
  rw [noSurrogates_cons, isSurrogate_eq, hhi]
  rfl

theorem endsHigh_false (acc : PyStr) : EndsHigh false acc := fun h => by cases h

theorem pairedFrom_short {e : Nat} (he : e ≠ 117) (rest : PyStr) (afterHigh : Bool) :
    pairedFrom (92 :: e :: rest) afterHigh = (!afterHigh && pairedFrom rest false) := by
  rw [pairedFrom.eq_def]
  simp only [if_true, if_neg he]

theorem pairedFrom_unicode {h₁ h₂ h₃ h₄ x : Nat} (hx : hex4? h₁ h₂ h₃ h₄ = some x) (rest : PyStr)
    (afterHigh : Bool) :
    pairedFrom (92 :: 117 :: h₁ :: h₂ :: h₃ :: h₄ :: rest) afterHigh
      = ((afterHigh == isLowSurrogate x) && pairedFrom rest (isHighSurrogate x)) := by
  rw [pairedFrom.eq_def]
  simp only [if_true, hx]

theorem pairedFrom_plain {c : Nat} (hc : c ≠ 92) (rest : PyStr) (afterHigh : Bool) :
    pairedFrom (c :: rest) afterHigh
      = ((!afterHigh && !isSurrogate c) && pairedFrom rest false) := by
  rw [pairedFrom.eq_def]
  simp only [if_neg hc]

/-- A character behind an escaped high surrogate leaves it by itself. -/
theorem push_plain {afterHigh : Bool} {acc : PyStr} (h : EndsHigh afterHigh acc) (x : Nat) :
    (noSurrogates (settled afterHigh acc) && (!afterHigh && !isSurrogate x))
      = noSurrogates (x :: acc) := by
  cases afterHigh with
  | true =>
    rw [noSurrogates_cons, h.left rfl]
    simp
  | false =>
    rw [noSurrogates_cons, Bool.and_comm]
    rfl

/-- An escape closes a pair, opens one, or is no surrogate; otherwise a surrogate is by
itself. -/
theorem push_escaped {afterHigh : Bool} {acc : PyStr} (h : EndsHigh afterHigh acc) (x : Nat) :
    (noSurrogates (settled afterHigh acc) && (afterHigh == isLowSurrogate x))
        = noSurrogates (settled (isHighSurrogate x) (pushEscaped afterHigh x acc)) ∧
      EndsHigh (isHighSurrogate x) (pushEscaped afterHigh x acc) := by
  cases afterHigh with
  | true =>
    obtain ⟨hi, base, rfl, hhi⟩ := h rfl
    have hbase : noSurrogates (hi :: base) = false := h.left rfl
    cases hlow : isLowSurrogate x with
    | true =>
      have hhigh : isHighSurrogate x = false := by
        cases hx : isHighSurrogate x with
        | false => rfl
        | true =>
          rw [high_not_low hx] at hlow
          cases hlow
      have hpush : pushEscaped true x (hi :: base) = joinSurrogates hi x :: base := by
        simp only [pushEscaped, hlow, Bool.and_self, if_true]
      rw [hhigh, hpush]
      refine ⟨?_, endsHigh_false _⟩
      show (noSurrogates base && true) = noSurrogates (joinSurrogates hi x :: base)
      rw [noSurrogates_cons, (joinSurrogates_range hhi hlow).1, Bool.and_true, Bool.not_false,
        Bool.true_and]
    | false =>
      have hpush : pushEscaped true x (hi :: base) = x :: hi :: base := by
        simp only [pushEscaped, hlow, Bool.and_false, Bool.false_eq_true, if_false]
      rw [hpush]
      constructor
      · cases hhigh : isHighSurrogate x with
        | true =>
          show (noSurrogates base && false) = noSurrogates (hi :: base)
          rw [hbase, Bool.and_false]
        | false =>
          show (noSurrogates base && false) = noSurrogates (x :: hi :: base)
          rw [noSurrogates_cons, hbase, Bool.and_false, Bool.and_false]
      · intro hx
        exact ⟨x, hi :: base, rfl, hx⟩
  | false =>
    rw [pushEscaped_low]
    refine ⟨?_, fun hx => ⟨x, acc, rfl, hx⟩⟩
    cases hhigh : isHighSurrogate x with
    | true =>
      show (noSurrogates acc && (false == isLowSurrogate x)) = noSurrogates acc
      rw [high_not_low hhigh]
      exact Bool.and_true _
    | false =>
      show (noSurrogates acc && (false == isLowSurrogate x)) = noSurrogates (x :: acc)
      rw [noSurrogates_cons, isSurrogate_eq, hhigh, Bool.false_or, Bool.and_comm]
      cases isLowSurrogate x with
      | true => rfl
      | false => rfl

/-- **A string has a surrogate exactly if its literal spells one by itself.** -/
theorem scanString_paired {cs acc s rest : PyStr} {afterHigh : Bool}
    (h : scanString cs afterHigh acc = some (s, rest)) (hacc : EndsHigh afterHigh acc) :
    (noSurrogates (settled afterHigh acc) && pairedFrom cs afterHigh)
      = (noSurrogates s && pairedFrom rest false) := by
  fun_induction scanString cs afterHigh acc with
  | case1 => cases h
  | case2 rest' afterHigh acc =>
    cases h
    rw [pairedFrom_plain (by decide), ← Bool.and_assoc, push_plain hacc, noSurrogates_cons,
      noSurrogates_reverse]
    rfl
  | case3 => cases h
  | case4 => cases h
  | case5 afterHigh acc h₁ h₂ h₃ h₄ rest' x hx _ ih =>
    obtain ⟨hpush, hends⟩ := push_escaped hacc x
    rw [pairedFrom_unicode hx, ← Bool.and_assoc, hpush]
    exact ih h hends
  | case6 => cases h
  | case7 => cases h
  | case8 afterHigh acc e rest' he x hx _ ih =>
    have hplain : isSurrogate x = false := by
      have hrange := escaped_range hx
      unfold isSurrogate
      simp only [Bool.and_eq_false_iff, decide_eq_false_iff_not]
      omega
    have hpush := push_plain hacc x
    rw [hplain, Bool.not_false, Bool.and_true] at hpush
    rw [pairedFrom_short he, ← Bool.and_assoc, hpush]
    exact ih h (endsHigh_false _)
  | case9 => cases h
  | case10 c rest' afterHigh acc _ hc _ ih =>
    rw [pairedFrom_plain hc, ← Bool.and_assoc, push_plain hacc]
    exact ih h (endsHigh_false _)

/-- Code points of a string come from its literal, or are written as escapes. -/
theorem scanString_inRange {cs acc s rest : PyStr} {afterHigh : Bool}
    (h : scanString cs afterHigh acc = some (s, rest)) (hacc : EndsHigh afterHigh acc)
    (hcs : inRange cs = true) (hrange : inRange acc = true) :
    inRange s = true := by
  have hcons : ∀ {c : Nat} {s : PyStr}, inRange (c :: s) = true ↔
      c ≤ 0x10FFFF ∧ inRange s = true := by
    intro c s
    unfold inRange
    rw [List.all_cons, Bool.and_eq_true, decide_eq_true_eq]
  fun_induction scanString cs afterHigh acc with
  | case1 => cases h
  | case2 rest' afterHigh acc =>
    cases h
    unfold inRange at hrange ⊢
    rw [List.all_reverse]
    exact hrange
  | case3 => cases h
  | case4 => cases h
  | case5 afterHigh acc h₁ h₂ h₃ h₄ rest' x hx _ ih =>
    have hsmall := hex4_range hx
    simp only [hcons] at hcs
    refine ih h (push_escaped hacc x).2 hcs.2.2.2.2.2.2 ?_
    cases acc with
    | nil => exact hcons.mpr ⟨by omega, rfl⟩
    | cons hi base =>
      show inRange (if afterHigh && isLowSurrogate x then joinSurrogates hi x :: base
        else x :: hi :: base) = true
      split
      · next hjoin =>
        rw [Bool.and_eq_true] at hjoin
        obtain ⟨hi', base', heq, hhi⟩ := hacc hjoin.1
        cases heq
        exact hcons.mpr ⟨(joinSurrogates_range hhi hjoin.2).2, (hcons.mp hrange).2⟩
      · exact hcons.mpr ⟨by omega, hrange⟩
  | case6 => cases h
  | case7 => cases h
  | case8 afterHigh acc e rest' he x hx _ ih =>
    have hsmall := escaped_range hx
    simp only [hcons] at hcs
    exact ih h (endsHigh_false _) hcs.2.2 (hcons.mpr ⟨by omega, hrange⟩)
  | case9 => cases h
  | case10 c rest' afterHigh acc _ hc _ ih =>
    obtain ⟨hle, hrest⟩ := hcons.mp hcs
    exact ih h (endsHigh_false _) hrest (hcons.mpr ⟨hle, hrange⟩)

theorem scanString_suffix {cs acc s rest : PyStr} {afterHigh : Bool}
    (h : scanString cs afterHigh acc = some (s, rest)) : rest <:+ cs := by
  fun_induction scanString cs afterHigh acc with
  | case1 => cases h
  | case2 rest' =>
    cases h
    exact List.suffix_cons _ _
  | case3 => cases h
  | case4 => cases h
  | case5 afterHigh acc h₁ h₂ h₃ h₄ rest' x hx _ ih =>
    exact (ih h).trans ⟨[92, 117, h₁, h₂, h₃, h₄], rfl⟩
  | case6 => cases h
  | case7 => cases h
  | case8 afterHigh acc e rest' he x hx _ ih => exact (ih h).trans ⟨[92, e], rfl⟩
  | case9 => cases h
  | case10 c rest' afterHigh acc _ hc _ ih => exact (ih h).trans (List.suffix_cons _ _)

/-! ## §2. Pieces of a text. -/

/-- What holds of a piece that the scanner took from `cs`, leaving `rest`; of the value
it read, the pieces say whether its keys are distinct, whether it fits, and its strings. -/
structure ScannedAs (nodup fits : Bool) (strings : (PyStr → Bool) → Bool) (cs rest : PyStr) :
    Prop where
  nodup : nodup = true
  fits : fits = true
  paired : pairedFrom cs false = (strings noSurrogates && pairedFrom rest false)
  suffix : rest <:+ cs
  range : inRange cs = true → strings inRange = true

/-- Nothing but characters that are no part of a string. -/
abbrev Skipped (cs rest : PyStr) : Prop := ScannedAs true true (fun _ => true) cs rest

theorem inRange_of_suffix {cs rest : PyStr} (h : rest <:+ cs) (hcs : inRange cs = true) :
    inRange rest = true := by
  unfold inRange at hcs ⊢
  rw [List.all_eq_true] at hcs ⊢
  exact fun c hc => hcs c (h.subset hc)

theorem ScannedAs.append {n n' f f' : Bool} {s s' : (PyStr → Bool) → Bool} {cs mid rest : PyStr}
    (h : ScannedAs n f s cs mid) (h' : ScannedAs n' f' s' mid rest) :
    ScannedAs (n && n') (f && f') (fun p => s p && s' p) cs rest where
  nodup := by rw [h.nodup, h'.nodup, Bool.and_self]
  fits := by rw [h.fits, h'.fits, Bool.and_self]
  paired := by rw [h.paired, h'.paired, Bool.and_assoc]
  suffix := h'.suffix.trans h.suffix
  range hcs := by
    rw [h.range hcs, h'.range (inRange_of_suffix h.suffix hcs), Bool.and_self]

/-- Skipping in front of a piece. -/
theorem ScannedAs.before {n f : Bool} {s : (PyStr → Bool) → Bool} {cs mid rest : PyStr}
    (h : Skipped cs mid) (h' : ScannedAs n f s mid rest) : ScannedAs n f s cs rest where
  nodup := h'.nodup
  fits := h'.fits
  paired := by rw [h.paired, h'.paired, Bool.true_and]
  suffix := h'.suffix.trans h.suffix
  range hcs := h'.range (inRange_of_suffix h.suffix hcs)

theorem skipped_refl (cs : PyStr) : Skipped cs cs :=
  ⟨rfl, rfl, (Bool.true_and _).symm, List.suffix_refl cs, fun _ => rfl⟩

theorem skipped_cons {c : Nat} (cs : PyStr) (hc : c ≠ 92 ∧ c < 128) : Skipped (c :: cs) cs where
  nodup := rfl
  fits := rfl
  paired := by
    have hplain : isSurrogate c = false := by
      unfold isSurrogate
      simp only [Bool.and_eq_false_iff, decide_eq_false_iff_not]
      omega
    rw [pairedFrom_plain hc.1, hplain]
    rfl
  suffix := List.suffix_cons c cs
  range _ := rfl

theorem skipped_append {pre : PyStr} (rest : PyStr) (h : ∀ c ∈ pre, c ≠ 92 ∧ c < 128) :
    Skipped (pre ++ rest) rest := by
  induction pre with
  | nil => exact skipped_refl rest
  | cons c pre ih =>
    have hhead := skipped_cons (pre ++ rest) (h c List.mem_cons_self)
    exact hhead.before (ih (fun x hx => h x (List.mem_cons_of_mem _ hx)))

theorem skipped_dropWhile (p : Nat → Bool) (hp : ∀ c, p c = true → c ≠ 92 ∧ c < 128) (cs : PyStr) :
    Skipped cs (cs.dropWhile p) := by
  have htake : ∀ c ∈ cs.takeWhile p, c ≠ 92 ∧ c < 128 :=
    fun c hc => hp c (List.all_eq_true.mp List.all_takeWhile c hc)
  have hskip := skipped_append (cs.dropWhile p) htake
  rw [List.takeWhile_append_dropWhile] at hskip
  exact hskip

theorem isJsonSpace_plain {c : Nat} (h : isJsonSpace c = true) : c ≠ 92 ∧ c < 128 := by
  simp only [isJsonSpace, Bool.or_eq_true, beq_iff_eq] at h
  omega

theorem isDigit_plain {c : Nat} (h : isDigit c = true) : c ≠ 92 ∧ c < 128 := by
  unfold isDigit at h
  rw [Bool.and_eq_true, decide_eq_true_eq, decide_eq_true_eq] at h
  omega

theorem skipSpace_skipped (cs : PyStr) : Skipped cs (skipSpace cs) :=
  skipped_dropWhile isJsonSpace (fun _ => isJsonSpace_plain) cs

theorem digits_skipped (cs : PyStr) : Skipped cs (cs.dropWhile isDigit) :=
  skipped_dropWhile isDigit (fun _ => isDigit_plain) cs

/-- A string, behind its opening quote. -/
theorem scanString_scanned {cs s rest : PyStr} (h : scanString cs false [] = some (s, rest)) :
    ScannedAs true true (fun p => p s) cs rest where
  nodup := rfl
  fits := rfl
  paired := by
    have hpaired := scanString_paired h (endsHigh_false [])
    rw [show noSurrogates (settled false []) = true from rfl, Bool.true_and] at hpaired
    exact hpaired
  suffix := scanString_suffix h
  range hcs := scanString_inRange h (endsHigh_false []) hcs rfl

/-! ## §3. Numbers and words. -/

theorem scanWhole_skipped {cs digits rest : PyStr} {negative : Bool}
    (h : scanWhole cs = some (negative, digits, rest)) : Skipped cs rest := by
  unfold scanWhole at h
  split at h
  next negative' cs' hsign =>
  have hskip : Skipped cs' rest := by
    cases cs' with
    | nil => cases h
    | cons c xs =>
      simp only at h
      split at h
      · next hc =>
        cases h
        exact skipped_cons _ (by omega)
      · split at h
        · next hc =>
          cases h
          exact (skipped_cons xs (isDigit_plain hc)).before (digits_skipped xs)
        · cases h
  split at hsign
  · cases hsign
    exact (skipped_cons _ (by decide)).before hskip
  · cases hsign
    exact hskip

theorem scanFraction_skipped (cs : PyStr) : Skipped cs (scanFraction cs).2 := by
  unfold scanFraction
  split
  · next d rest =>
    split
    · next hd =>
      exact (skipped_cons _ (by decide)).before
        ((skipped_cons rest (isDigit_plain hd)).before (digits_skipped rest))
    · exact skipped_refl _
  · exact skipped_refl _

theorem scanSign_skipped (cs : PyStr) : Skipped cs (scanSign cs).2 := by
  unfold scanSign
  split
  · next c rest =>
    split
    · exact skipped_cons rest (by omega)
    · exact skipped_refl _
  · exact skipped_refl _

theorem scanExponent_skipped (cs : PyStr) : Skipped cs (scanExponent cs).2 := by
  unfold scanExponent
  split
  · next e rest =>
    have hsign := scanSign_skipped rest
    split
    · next he =>
      split
      · next d rest' hd =>
        rw [hd] at hsign
        split
        · next hdigit =>
          exact (skipped_cons rest (by omega)).before
            (hsign.before ((skipped_cons rest' (isDigit_plain hdigit)).before
              (digits_skipped rest')))
        · exact skipped_refl _
      · exact skipped_refl _
    · exact skipped_refl _
  · exact skipped_refl _

section Scan

variable (rt : Interpreter) (path : PyStr)

/-- A value that is no container and no string. -/
theorem scanAtom_scanned {cs rest : PyStr} {v : Json} (depth : Nat)
    (h : scanAtom rt path cs = .ok (v, rest)) :
    ScannedAs v.nodupKeys (v.fits depth) (fun p => v.allStrings p) cs rest := by
  have hword : ∀ {word : String} {w : PyStr} {n : Nat}, py word = w → (∀ c ∈ w, c ≠ 92 ∧ c < 128) →
      w.length = n → (py word).isPrefixOf cs = true → Skipped cs (cs.drop n) := by
    intro word w n hw hplain hn hp
    obtain ⟨tail, htail⟩ := List.isPrefixOf_iff_prefix.mp hp
    rw [← htail, hw, ← hn, List.drop_left]
    exact skipped_append _ hplain
  have hatom : ∀ {v : Json}, v.nodupKeys = true → v.fits depth = true →
      (∀ p, v.allStrings p = true) → Skipped cs rest →
      ScannedAs v.nodupKeys (v.fits depth) (fun p => v.allStrings p) cs rest := by
    intro v hn hf hs hskip
    exact ⟨hn, hf, by rw [hs]; exact hskip.paired, hskip.suffix, fun _ => hs _⟩
  unfold scanAtom rejectConstant at h
  split at h
  · next hp =>
    cases h
    exact hatom rfl rfl (fun _ => rfl) (hword py_null (by decide) rfl hp)
  split at h
  · next hp =>
    cases h
    exact hatom rfl rfl (fun _ => rfl) (hword py_true (by decide) rfl hp)
  split at h
  · next hp =>
    cases h
    exact hatom rfl rfl (fun _ => rfl) (hword py_false (by decide) rfl hp)
  split at h
  · cases h
  split at h
  · cases h
  split at h
  · cases h
  split at h
  · cases h
  · next negative digits rest' hn =>
    obtain ⟨w, hv, h⟩ := ok_of_bind h
    cases h
    have hskip := (scanWhole_skipped hn).before
      ((scanFraction_skipped rest').before (scanExponent_skipped (scanFraction rest').2))
    rcases numberValue_cases rt negative digits ((scanFraction rest').1
      ++ (scanExponent (scanFraction rest').2).1) with ⟨n, hnum⟩ | ⟨f, hnum⟩ | hnum
    · rw [hnum] at hv
      cases hv
      exact hatom rfl rfl (fun _ => rfl) hskip
    · rw [hnum] at hv
      cases hv
      exact hatom rfl rfl (fun _ => rfl) hskip
    · rw [hnum] at hv
      cases hv

/-! ## §4. Values. -/

theorem nodup_of_duplicateKey {fs : List (PyStr × Json)} {seen : List PyStr}
    (h : duplicateKey? seen fs = none) :
    (fs.map Prod.fst).Nodup ∧ ∀ f ∈ fs, f.1 ∉ seen := by
  induction fs generalizing seen with
  | nil => exact ⟨List.nodup_nil, fun f hf => by cases hf⟩
  | cons f fs ih =>
    unfold duplicateKey? at h
    split at h
    · cases h
    · next hseen =>
      rw [List.contains_iff_mem] at hseen
      obtain ⟨hnodup, hrest⟩ := ih h
      constructor
      · rw [List.map_cons, List.nodup_cons]
        refine ⟨fun hmem => ?_, hnodup⟩
        obtain ⟨g, hg, heq⟩ := List.mem_map.mp hmem
        exact hrest g hg (heq ▸ List.mem_cons_self)
      · intro g hg
        rcases List.mem_cons.mp hg with rfl | hg
        · exact hseen
        · exact fun hmem => hrest g hg (List.mem_cons_of_mem _ hmem)

theorem uniqueObject_ok {pairs : List (PyStr × Json)} {v : Json}
    (h : uniqueObject rt path pairs = .ok v) : v = .dict pairs ∧ (pairs.map Prod.fst).Nodup := by
  unfold uniqueObject at h
  split at h
  · cases h
  · next hkey =>
    cases h
    exact ⟨rfl, (nodup_of_duplicateKey hkey).1⟩

/-- A container around a piece. -/
theorem ScannedAs.list {depth : Nat} {xs : List Json} {cs rest : PyStr} (hdepth : depth ≠ 0)
    (h : ScannedAs (Json.nodupKeysItems xs) (Json.fitsItems (depth - 1) xs)
      (fun p => Json.allStringsItems p xs) cs rest) :
    ScannedAs (Json.list xs).nodupKeys ((Json.list xs).fits depth)
      (fun p => (Json.list xs).allStrings p) cs rest where
  nodup := h.nodup
  fits := by rw [Json.fits, h.fits, Bool.and_true, decide_eq_true hdepth]
  paired := h.paired
  suffix := h.suffix
  range := h.range

theorem ScannedAs.dict {depth : Nat} {fs : List (PyStr × Json)} {cs rest : PyStr}
    (hdepth : depth ≠ 0) (hnodup : (fs.map Prod.fst).Nodup)
    (h : ScannedAs (Json.nodupKeysFields fs) (Json.fitsFields (depth - 1) fs)
      (fun p => Json.allStringsFields p fs) cs rest) :
    ScannedAs (Json.dict fs).nodupKeys ((Json.dict fs).fits depth)
      (fun p => (Json.dict fs).allStrings p) cs rest where
  nodup := by rw [Json.nodupKeys, h.nodup, Bool.and_true, decide_eq_true hnodup]
  fits := by rw [Json.fits, h.fits, Bool.and_true, decide_eq_true hdepth]
  paired := h.paired
  suffix := h.suffix
  range := h.range

/-- **What the scanner reads is well formed**, and has surrogates exactly where its text
spells them by themselves. -/
theorem scan_scanned (fuel : Nat) :
    (∀ depth cs v rest, scanValue rt path fuel depth cs = .ok (v, rest) →
      ScannedAs v.nodupKeys (v.fits depth) (fun p => v.allStrings p) cs rest) ∧
    (∀ depth cs fs rest, scanFields rt path fuel depth cs = .ok (fs, rest) →
      ScannedAs (Json.nodupKeysFields fs) (Json.fitsFields depth fs)
        (fun p => Json.allStringsFields p fs) cs rest) ∧
    ∀ depth cs xs rest, scanItems rt path fuel depth cs = .ok (xs, rest) →
      ScannedAs (Json.nodupKeysItems xs) (Json.fitsItems depth xs)
        (fun p => Json.allStringsItems p xs) cs rest := by
  induction fuel with
  | zero =>
    refine ⟨?_, ?_, ?_⟩
    · intro depth cs v rest h
      cases h
    · intro depth cs fs rest h
      cases h
    · intro depth cs xs rest h
      cases h
  | succ fuel ih =>
    obtain ⟨ihValue, ihFields, ihItems⟩ := ih
    refine ⟨fun depth cs v rest h => ?_, fun depth cs fs rest h => ?_,
      fun depth cs xs rest h => ?_⟩
    · -- a value
      unfold scanValue at h
      cases cs with
      | nil => cases h
      | cons c cs =>
        simp only at h
        split at h
        · next hc =>
          subst hc
          split at h
          · cases h
          · next s rest' hs =>
            cases h
            exact (skipped_cons cs (by decide)).before (scanString_scanned hs)
        split at h
        · next hc =>
          subst hc
          have hskip := (skipped_cons cs (by decide : (123 : Nat) ≠ 92 ∧ 123 < 128)).before
            (skipSpace_skipped cs)
          split at h
          · cases h
          · next hdepth =>
            split at h
            · next rest' heq =>
              cases h
              rw [heq] at hskip
              exact (hskip.before (skipped_cons _ (by decide))).dict hdepth List.nodup_nil
            · obtain ⟨⟨pairs, rest'⟩, hpairs, h⟩ := ok_of_bind h
              obtain ⟨w, hw, h⟩ := ok_of_bind h
              cases h
              obtain ⟨rfl, hnodup⟩ := uniqueObject_ok rt path hw
              exact (hskip.before (ihFields _ _ _ _ hpairs)).dict hdepth hnodup
        split at h
        · next hc =>
          subst hc
          have hskip := (skipped_cons cs (by decide : (91 : Nat) ≠ 92 ∧ 91 < 128)).before
            (skipSpace_skipped cs)
          split at h
          · cases h
          · next hdepth =>
            split at h
            · next rest' heq =>
              cases h
              rw [heq] at hskip
              exact (hskip.before (skipped_cons _ (by decide))).list hdepth
            · obtain ⟨⟨items, rest'⟩, hitems, h⟩ := ok_of_bind h
              cases h
              exact (hskip.before (ihItems _ _ _ _ hitems)).list hdepth
        · exact scanAtom_scanned rt path depth h
    · -- the fields of an object
      unfold scanFields at h
      split at h
      · next cs' =>
        split at h
        · cases h
        · next key rest₁ hs =>
          have hkey := (skipped_cons cs' (by decide : (34 : Nat) ≠ 92 ∧ 34 < 128)).before
            (scanString_scanned hs)
          have hskip := skipSpace_skipped rest₁
          split at h
          · next rest₂ hcolon =>
            rw [hcolon] at hskip
            have hcolon' := (hskip.before (skipped_cons rest₂ (by decide))).before
              (skipSpace_skipped rest₂)
            obtain ⟨⟨v, rest₃⟩, hv, h⟩ := ok_of_bind h
            have hfield := hkey.append (hcolon'.before (ihValue _ _ _ _ hv))
            have hskip₃ := skipSpace_skipped rest₃
            simp only at h
            split at h
            · next rest₄ hclose =>
              cases h
              rw [hclose] at hskip₃
              have hend := hskip₃.before (skipped_cons _ (by decide))
              exact hfield.append hend
            · next rest₄ hcomma =>
              obtain ⟨⟨pairs, rest₅⟩, hpairs, h⟩ := ok_of_bind h
              cases h
              rw [hcomma] at hskip₃
              have hnext := (hskip₃.before (skipped_cons rest₄ (by decide))).before
                (skipSpace_skipped rest₄)
              exact hfield.append (hnext.before (ihFields _ _ _ _ hpairs))
            · cases h
          · cases h
      · cases h
    · -- the items of an array
      unfold scanItems at h
      obtain ⟨⟨v, rest₁⟩, hv, h⟩ := ok_of_bind h
      have hitem := ihValue _ _ _ _ hv
      have hskip := skipSpace_skipped rest₁
      simp only at h
      split at h
      · next rest₂ hclose =>
        cases h
        rw [hclose] at hskip
        exact hitem.append (hskip.before (skipped_cons _ (by decide)))
      · next rest₂ hcomma =>
        obtain ⟨⟨items, rest₃⟩, hitems, h⟩ := ok_of_bind h
        cases h
        rw [hcomma] at hskip
        have hnext := (hskip.before (skipped_cons rest₂ (by decide))).before
          (skipSpace_skipped rest₂)
        exact hitem.append (hnext.before (ihItems _ _ _ _ hitems))
      · cases h

/-- **What `json.loads` returns**, in terms of the text of its argument. -/
theorem loads_scanned {payload : List UInt8} {v : Json} (h : loads rt path payload = .ok v) :
    ∃ text, decodeText payload = some text ∧ v.nodupKeys = true ∧ v.fits rt.scanDepth = true ∧
      v.allStrings noSurrogates = pairedFrom text false ∧
      (inRange text = true → v.allStrings inRange = true) := by
  unfold loads at h
  cases htext : decodeText payload with
  | none =>
    rw [htext] at h
    cases h
  | some text =>
    rw [htext] at h
    obtain ⟨⟨w, rest⟩, hw, h⟩ := ok_of_bind h
    simp only at h
    split at h
    · next hempty =>
      cases h
      have hall := (skipSpace_skipped text).before ((scan_scanned rt path _).1 _ _ _ _ hw)
      have hrest := (skipSpace_skipped rest).paired
      rw [List.isEmpty_iff.mp hempty, Bool.true_and] at hrest
      refine ⟨text, rfl, hall.nodup, hall.fits, ?_, hall.range⟩
      rw [hall.paired, hrest]
      exact (Bool.and_true _).symm
    · cases h

end Scan

end Lyte
