import Mathlib.Data.List.TakeWhile
import Lyte.Connectors.Base
import Lyte.Domain.Scanned

/-
  Lyte.Connectors.StrictJson — what the strict loader accepts can be hashed, or not.

  A document that `strict_json_loads` accepts has a canonical text, and the text
  decodes to a value with the same digest, if it spells surrogates in pairs only.
  A lone surrogate passes the loader and cannot be encoded: then `sha256_json`
  raises UnicodeEncodeError.

      strict_json_hashable   the equivalence, for every accepted document.
-/

namespace Lyte

open Transact

/-! ## §1. Text to bytes and back. -/

theorem toUInt8_of_lt {n : Nat} (h : n < 256) : n.toUInt8.toNat = n := by
  rw [Nat.toUInt8_eq, UInt8.toNat_ofNat']
  omega

/-- UTF-8 bytes of a code point are read as that code point. -/
theorem decodeUtf8_utf8Bytes {c : Nat} (hc : c ≤ 0x10FFFF) (rest : List Nat) :
    decodeUtf8 ((utf8Bytes c).map UInt8.toNat ++ rest) = (decodeUtf8 rest).map (c :: ·) := by
  unfold utf8Bytes
  split
  · next h =>
    rw [List.map_singleton, toUInt8_of_lt (by omega), List.singleton_append, decodeUtf8.eq_def]
    simp only [if_pos h]
  split
  · next h₀ h =>
    simp only [List.map_cons, List.map_nil, List.cons_append, List.nil_append]
    rw [toUInt8_of_lt (by omega), toUInt8_of_lt (by omega), decodeUtf8.eq_def]
    have hhead : ¬ 0xC0 + c / 64 < 0x80 := by omega
    have htwo : (0xC2 ≤ 0xC0 + c / 64 && 0xC0 + c / 64 < 0xE0 && isTail (0x80 + c % 64)) = true := by
      simp only [isTail, Bool.and_eq_true, decide_eq_true_eq]
      omega
    have hvalue : (0xC0 + c / 64 - 0xC0) * 64 + (0x80 + c % 64 - 0x80) = c := by omega
    simp only [if_neg hhead, htwo, if_true, hvalue]
  split
  · next h₀ h₁ h =>
    simp only [List.map_cons, List.map_nil, List.cons_append, List.nil_append]
    rw [toUInt8_of_lt (by omega), toUInt8_of_lt (by omega), toUInt8_of_lt (by omega),
      decodeUtf8.eq_def]
    have hhead : ¬ 0xE0 + c / 4096 < 0x80 := by omega
    have htwo : (0xC2 ≤ 0xE0 + c / 4096 && 0xE0 + c / 4096 < 0xE0 && isTail (0x80 + c / 64 % 64))
        = false := by
      simp only [Bool.and_eq_false_iff, decide_eq_false_iff_not]
      omega
    have hthree : (0xE0 ≤ 0xE0 + c / 4096 && 0xE0 + c / 4096 < 0xF0 && isTail (0x80 + c / 64 % 64) &&
        isTail (0x80 + c % 64) && (0xE0 + c / 4096 != 0xE0 || 0xA0 ≤ 0x80 + c / 64 % 64)) = true := by
      simp only [isTail, Bool.and_eq_true, Bool.or_eq_true, decide_eq_true_eq, bne_iff_ne]
      omega
    have hvalue : (0xE0 + c / 4096 - 0xE0) * 4096 + (0x80 + c / 64 % 64 - 0x80) * 64
        + (0x80 + c % 64 - 0x80) = c := by omega
    simp only [if_neg hhead, htwo, Bool.false_eq_true, if_false, hthree, if_true, hvalue]
  · next h₀ h₁ h₂ =>
    simp only [List.map_cons, List.map_nil, List.cons_append, List.nil_append]
    rw [toUInt8_of_lt (by omega), toUInt8_of_lt (by omega), toUInt8_of_lt (by omega),
      toUInt8_of_lt (by omega), decodeUtf8.eq_def]
    have hhead : ¬ 0xF0 + c / 262144 < 0x80 := by omega
    have htwo : (0xC2 ≤ 0xF0 + c / 262144 && 0xF0 + c / 262144 < 0xE0 &&
        isTail (0x80 + c / 4096 % 64)) = false := by
      simp only [Bool.and_eq_false_iff, decide_eq_false_iff_not]
      omega
    have hthree : (0xE0 ≤ 0xF0 + c / 262144 && 0xF0 + c / 262144 < 0xF0 &&
        isTail (0x80 + c / 4096 % 64) && isTail (0x80 + c / 64 % 64) &&
        (0xF0 + c / 262144 != 0xE0 || 0xA0 ≤ 0x80 + c / 4096 % 64)) = false := by
      simp only [Bool.and_eq_false_iff, decide_eq_false_iff_not]
      omega
    have hfour : (0xF0 ≤ 0xF0 + c / 262144 && 0xF0 + c / 262144 < 0xF5 &&
        isTail (0x80 + c / 4096 % 64) && isTail (0x80 + c / 64 % 64) && isTail (0x80 + c % 64) &&
        (0xF0 + c / 262144 != 0xF0 || 0x90 ≤ 0x80 + c / 4096 % 64) &&
        (0xF0 + c / 262144 != 0xF4 || 0x80 + c / 4096 % 64 < 0x90)) = true := by
      simp only [isTail, Bool.and_eq_true, Bool.or_eq_true, decide_eq_true_eq, bne_iff_ne]
      omega
    have hvalue : (0xF0 + c / 262144 - 0xF0) * 262144 + (0x80 + c / 4096 % 64 - 0x80) * 4096
        + (0x80 + c / 64 % 64 - 0x80) * 64 + (0x80 + c % 64 - 0x80) = c := by omega
    simp only [if_neg hhead, htwo, Bool.false_eq_true, if_false, hthree, hfour, if_true, hvalue]

theorem decodeUtf8_utf8Encode {text : PyStr} (h : inRange text = true) :
    decodeUtf8 ((text.flatMap utf8Bytes).map UInt8.toNat) = some text := by
  induction text with
  | nil => rfl
  | cons c text ih =>
    unfold inRange at h
    rw [List.all_cons, Bool.and_eq_true, decide_eq_true_eq] at h
    rw [List.flatMap_cons, List.map_append, decodeUtf8_utf8Bytes h.1, ih h.2]
    rfl

/-- No byte of a character other than NUL is zero. -/
theorem utf8Bytes_ne_zero {c : Nat} (h0 : c ≠ 0) (hc : c ≤ 0x10FFFF) :
    ∀ b ∈ (utf8Bytes c).map UInt8.toNat, b ≠ 0 := by
  unfold utf8Bytes
  intro b hb
  split at hb
  · rw [List.map_singleton, toUInt8_of_lt (by omega), List.mem_singleton] at hb
    omega
  split at hb
  · simp only [List.map_cons, List.map_nil, List.mem_cons, List.not_mem_nil, or_false] at hb
    rw [toUInt8_of_lt (by omega), toUInt8_of_lt (by omega)] at hb
    omega
  split at hb
  · simp only [List.map_cons, List.map_nil, List.mem_cons, List.not_mem_nil, or_false] at hb
    rw [toUInt8_of_lt (by omega), toUInt8_of_lt (by omega), toUInt8_of_lt (by omega)] at hb
    omega
  · simp only [List.map_cons, List.map_nil, List.mem_cons, List.not_mem_nil, or_false] at hb
    rw [toUInt8_of_lt (by omega), toUInt8_of_lt (by omega), toUInt8_of_lt (by omega),
      toUInt8_of_lt (by omega)] at hb
    omega

/-- Bytes without a zero that begin with an ASCII character are taken for UTF-8. -/
theorem detectEncoding_utf8 {b : Nat} {bs : List Nat} (hascii : b < 128)
    (hzero : ∀ x ∈ b :: bs, x ≠ 0) : detectEncoding (b :: bs) = .utf8 := by
  have hmark : ∀ m ms, m ≠ b → (m :: ms).isPrefixOf (b :: bs) = false :=
    fun m ms h => isPrefixOf_head_ne h
  have hb : b ≠ 0 := hzero b List.mem_cons_self
  unfold detectEncoding
  rw [hmark 0x00 _ (Ne.symm hb), hmark 0xFF _ (by omega), hmark 0xFE _ (by omega),
    hmark 0xFF _ (by omega), hmark 0xEF _ (by omega)]
  simp only [Bool.or_self, Bool.false_eq_true, if_false]
  rcases bs with _ | ⟨b₁, _ | ⟨b₂, _ | ⟨b₃, bs⟩⟩⟩
  · rfl
  · have h₁ : b₁ ≠ 0 := hzero b₁ (by simp)
    simp only [if_neg hb, if_neg h₁]
  · rfl
  · have h₁ : b₁ ≠ 0 := hzero b₁ (by simp)
    simp only [if_neg hb, if_neg h₁]

/-- Text without NUL that begins with ASCII is read back from its UTF-8. -/
theorem decodeText_utf8Encode {text : PyStr} (hopen : Opens text) (hrange : inRange text = true)
    (hnul : ∀ c ∈ text, c ≠ 0) : decodeText (text.flatMap utf8Bytes) = some text := by
  have hback := decodeUtf8_utf8Encode hrange
  have hzero : ∀ b ∈ (text.flatMap utf8Bytes).map UInt8.toNat, b ≠ 0 := by
    intro b hb
    rw [List.map_flatMap] at hb
    obtain ⟨c, hc, hb⟩ := List.mem_flatMap.mp hb
    have hle := of_decide_eq_true (List.all_eq_true.mp hrange c hc)
    exact utf8Bytes_ne_zero (hnul c hc) hle b hb
  obtain ⟨c, cs, rfl, _, _, hascii⟩ := hopen
  have hbytes : ((c :: cs).flatMap utf8Bytes).map UInt8.toNat
      = c :: (cs.flatMap utf8Bytes).map UInt8.toNat := by
    rw [List.flatMap_cons]
    unfold utf8Bytes
    rw [if_pos hascii, List.singleton_append, List.map_cons, toUInt8_of_lt (by omega)]
  unfold decodeText
  rw [hbytes] at hback hzero ⊢
  simp only [detectEncoding_utf8 hascii hzero]
  exact hback

theorem inRange_cons {c : Nat} {s : PyStr} :
    inRange (c :: s) = true ↔ c ≤ 0x10FFFF ∧ inRange s = true := by
  unfold inRange
  rw [List.all_cons, Bool.and_eq_true, decide_eq_true_eq]

theorem decodeUtf8_inRange {bytes : List Nat} {text : PyStr} (h : decodeUtf8 bytes = some text) :
    inRange text = true := by
  fun_induction decodeUtf8 bytes generalizing text with
  | case1 =>
    cases h
    rfl
  | case2 a rest ha ih =>
    obtain ⟨t, ht, rfl⟩ := Option.map_eq_some_iff.mp h
    exact inRange_cons.mpr ⟨by omega, ih ht⟩
  | case4 a ha b rest hab ih =>
    obtain ⟨t, ht, rfl⟩ := Option.map_eq_some_iff.mp h
    simp only [isTail, Bool.and_eq_true, decide_eq_true_eq] at hab
    exact inRange_cons.mpr ⟨by omega, ih ht⟩
  | case6 a ha b hab c rest habc ih =>
    obtain ⟨t, ht, rfl⟩ := Option.map_eq_some_iff.mp h
    simp only [isTail, Bool.and_eq_true, decide_eq_true_eq] at habc
    exact inRange_cons.mpr ⟨by omega, ih ht⟩
  | case8 a ha b hab c habc d rest habcd ih =>
    obtain ⟨t, ht, rfl⟩ := Option.map_eq_some_iff.mp h
    simp only [isTail, Bool.and_eq_true, Bool.or_eq_true, decide_eq_true_eq, bne_iff_ne] at habcd
    exact inRange_cons.mpr ⟨by omega, ih ht⟩
  | _ => cases h

theorem units16_small {big : Bool} {bytes units : List Nat} (hb : ∀ b ∈ bytes, b < 256)
    (h : units16 big bytes = some units) : ∀ u ∈ units, u < 65536 := by
  fun_induction units16 big bytes generalizing units with
  | case1 =>
    cases h
    intro u hu
    cases hu
  | case2 => cases h
  | case3 a b rest ih =>
    obtain ⟨us, hus, rfl⟩ := Option.map_eq_some_iff.mp h
    have ha := hb a List.mem_cons_self
    have hb' := hb b (List.mem_cons_of_mem _ List.mem_cons_self)
    intro u hu
    rcases List.mem_cons.mp hu with rfl | hu
    · split
      · omega
      · omega
    · exact ih (fun x hx => hb x (List.mem_cons_of_mem _ (List.mem_cons_of_mem _ hx))) hus u hu

theorem joinPairs_inRange {units : List Nat} (h : ∀ u ∈ units, u < 65536) :
    inRange (joinPairs units) = true := by
  fun_induction joinPairs units with
  | case1 hi lo rest hpair ih =>
    rw [Bool.and_eq_true] at hpair
    refine inRange_cons.mpr ⟨(joinSurrogates_range hpair.1 hpair.2).2, ih ?_⟩
    exact fun u hu => h u (List.mem_cons_of_mem _ (List.mem_cons_of_mem _ hu))
  | case2 hi lo rest _ ih =>
    have hhi := h hi List.mem_cons_self
    refine inRange_cons.mpr ⟨by omega, ih (fun u hu => h u (List.mem_cons_of_mem _ hu))⟩
  | case3 units _ =>
    unfold inRange
    rw [List.all_eq_true]
    intro u hu
    have hlt := h u hu
    rw [decide_eq_true_eq]
    omega

theorem units32_inRange {big : Bool} {bytes : List Nat} {text : PyStr}
    (h : units32 big bytes = some text) : inRange text = true := by
  fun_induction units32 big bytes generalizing text with
  | case1 =>
    cases h
    rfl
  | case2 =>
    rename_i n hn ih
    obtain ⟨t, ht, rfl⟩ := Option.map_eq_some_iff.mp h
    exact inRange_cons.mpr ⟨hn, ih ht⟩
  | _ => cases h

/-- The code points of a decoded text are in range. -/
theorem decodeText_inRange {payload : List UInt8} {text : PyStr}
    (h : decodeText payload = some text) : inRange text = true := by
  have hbyte : ∀ n, ∀ b ∈ (payload.map UInt8.toNat).drop n, b < 256 := by
    intro n b hb
    obtain ⟨x, _, rfl⟩ := List.mem_map.mp (List.mem_of_mem_drop hb)
    exact x.toNat_lt
  have hpairs : ∀ {big : Bool} {n : Nat},
      (units16 big ((payload.map UInt8.toNat).drop n)).map joinPairs = some text →
        inRange text = true := by
    intro big n hu
    obtain ⟨units, hunits, rfl⟩ := Option.map_eq_some_iff.mp hu
    exact joinPairs_inRange (units16_small (hbyte n) hunits)
  unfold decodeText at h
  simp only at h
  split at h
  · exact decodeUtf8_inRange h
  · exact decodeUtf8_inRange h
  · exact hpairs h
  · exact hpairs (n := 0) h
  · exact hpairs (n := 0) h
  · exact units32_inRange h
  · exact units32_inRange h
  · exact units32_inRange h

/-! ## §2. The characters of a canonical text. -/

theorem all_joinComma {p : Nat → Bool} (hp : ∀ c, 32 ≤ c → c < 128 → p c = true)
    (ts : List PyStr) : (joinComma ts).all p = ts.all (fun t => t.all p) := by
  induction ts with
  | nil => rfl
  | cons t ts ih =>
    cases ts with
    | nil =>
      rw [joinComma, List.all_cons, List.all_nil, Bool.and_true]
    | cons u us =>
      rw [joinComma_cons_cons, List.all_append, List.all_cons, hp 44 (by decide) (by decide),
        Bool.true_and, ih]
      rfl

theorem all_congr_mem {α : Type} {p q : α → Bool} {xs : List α} (h : ∀ x ∈ xs, p x = q x) :
    xs.all p = xs.all q := by
  induction xs with
  | nil => rfl
  | cons x xs ih =>
    rw [List.all_cons, List.all_cons, h x List.mem_cons_self,
      ih (fun y hy => h y (List.mem_cons_of_mem _ hy))]

theorem all_ascii {p : Nat → Bool} (hp : ∀ c, 32 ≤ c → c < 128 → p c = true) {s : PyStr}
    (hs : ∀ c ∈ s, 32 ≤ c ∧ c < 128) : s.all p = true :=
  List.all_eq_true.mpr (fun c hc => hp c (hs c hc).1 (hs c hc).2)

theorem isDigit_ascii {c : Nat} (h : isDigit c = true) : 32 ≤ c ∧ c < 128 := by
  unfold isDigit at h
  rw [Bool.and_eq_true, decide_eq_true_eq, decide_eq_true_eq] at h
  omega

theorem signText_ascii (negative : Bool) : ∀ c ∈ signText negative, 32 ≤ c ∧ c < 128 := by
  cases negative with
  | true => decide
  | false => decide

theorem decimalInt_ascii (n : Int) : ∀ c ∈ decimalInt n, 32 ≤ c ∧ c < 128 := by
  intro c hc
  rw [decimalInt_eq] at hc
  rcases List.mem_append.mp hc with hc | hc
  · exact signText_ascii _ c hc
  · exact isDigit_ascii (isDigit_of_mem_decimal hc)

theorem FloatText.ascii {s : PyStr} (h : FloatText s) : ∀ c ∈ s, 32 ≤ c ∧ c < 128 := by
  obtain ⟨negative, whole, fraction, exponent, rfl, hw, hf, he, _⟩ := h
  intro c hc
  rcases List.mem_append.mp hc with hc | hc
  · rcases List.mem_append.mp hc with hc | hc
    · rcases List.mem_append.mp hc with hc | hc
      · exact signText_ascii _ c hc
      · exact isDigit_ascii (hw.all c hc)
    · rcases hf with rfl | ⟨d, ds, rfl, hd, hds⟩
      · cases hc
      · rcases List.mem_cons.mp hc with rfl | hc
        · decide
        rcases List.mem_cons.mp hc with rfl | hc
        · exact isDigit_ascii hd
        · exact isDigit_ascii (hds c hc)
  · rcases he with rfl | ⟨sign, d, ds, hsign, rfl, hd, hds⟩
    · cases hc
    · rcases List.mem_append.mp hc with hc | hc
      · rcases List.mem_cons.mp hc with rfl | hc
        · decide
        · rcases hsign with rfl | rfl | rfl
          · rw [List.mem_singleton.mp hc]
            decide
          · rw [List.mem_singleton.mp hc]
            decide
          · cases hc
      · rcases List.mem_cons.mp hc with rfl | hc
        · exact isDigit_ascii hd
        · exact isDigit_ascii (hds c hc)

section Characters

variable {rt : Interpreter} {p : Nat → Bool} {q : PyStr → Bool} {quoted : PyStr → PyStr}

/-- The characters of a string literal. -/
def literalAll (p : Nat → Bool) (s : PyStr) : Bool := (s.flatMap escapeChar).all p

theorem all_quote (hp : ∀ c, 32 ≤ c → c < 128 → p c = true) (s : PyStr) :
    (quote s).all p = literalAll p s := by
  unfold quote literalAll
  rw [List.all_append, List.all_append, List.all_cons, List.all_nil,
    hp 34 (by decide) (by decide)]
  simp

mutual
/-- **The characters of a canonical text** are printable ASCII and those of its string
literals. -/
theorem render_all (hrepr : ReprRoundTrip rt) (hp : ∀ c, 32 ≤ c → c < 128 → p c = true)
    (hq : ∀ s, (quoted s).all p = q s) (v : Json) (hv : v.encodable = true) :
    (v.renderWith rt.toRuntime quoted).all p = v.allStrings q := by
  cases v with
  | null =>
    unfold Json.renderWith
    rw [py_null]
    exact all_ascii hp (by decide)
  | bool b =>
    unfold Json.renderWith
    cases b with
    | true =>
      simp only [py_true]
      exact all_ascii hp (by decide)
    | false =>
      simp only [py_false]
      exact all_ascii hp (by decide)
  | int n =>
    unfold Json.renderWith
    exact all_ascii hp (decimalInt_ascii n)
  | float f =>
    unfold Json.renderWith
    exact all_ascii hp (hrepr f hv).1.ascii
  | str s =>
    unfold Json.renderWith
    exact hq s
  | list xs =>
    rw [Json.encodable, encodableItems_eq, List.all_eq_true] at hv
    rw [renderWith_list, List.all_append, List.all_append, all_joinComma hp, List.all_map,
      List.all_cons, List.all_cons, List.all_nil, hp 91 (by decide) (by decide),
      hp 93 (by decide) (by decide), Json.allStrings, allStringsItems_eq]
    simp only [Bool.true_and, Bool.and_true]
    exact all_congr_mem (fun x hx => render_all_items hrepr hp hq xs hv x hx)
  | dict fs =>
    rw [Json.encodable, encodableFields_eq, List.all_eq_true] at hv
    rw [renderWith_dict, List.all_append, List.all_append, all_joinComma hp, List.all_map,
      List.all_cons, List.all_cons, List.all_nil, hp 123 (by decide) (by decide),
      hp 125 (by decide) (by decide), Json.allStrings, allStringsFields_eq,
      (sortByKey_perm fs).all_eq]
    simp only [Bool.true_and, Bool.and_true]
    refine all_congr_mem (fun f hf => ?_)
    show (quoted f.1 ++ [58] ++ f.2.renderWith rt.toRuntime quoted).all p = _
    rw [List.all_append, List.all_append, hq, List.all_cons, List.all_nil,
      hp 58 (by decide) (by decide), render_all_fields hrepr hp hq fs hv f hf]
    simp

theorem render_all_items (hrepr : ReprRoundTrip rt) (hp : ∀ c, 32 ≤ c → c < 128 → p c = true)
    (hq : ∀ s, (quoted s).all p = q s) (xs : List Json) (hxs : ∀ x ∈ xs, x.encodable = true) :
    ∀ x ∈ xs, (x.renderWith rt.toRuntime quoted).all p = x.allStrings q := by
  cases xs with
  | nil =>
    intro x hx
    cases hx
  | cons y ys =>
    intro x hx
    rcases List.mem_cons.mp hx with h | h
    · rw [h]
      exact render_all hrepr hp hq y (hxs y List.mem_cons_self)
    · exact render_all_items hrepr hp hq ys (fun z hz => hxs z (List.mem_cons_of_mem _ hz)) x h

theorem render_all_fields (hrepr : ReprRoundTrip rt) (hp : ∀ c, 32 ≤ c → c < 128 → p c = true)
    (hq : ∀ s, (quoted s).all p = q s) (fs : List (PyStr × Json)) (hfs : ∀ f ∈ fs, f.2.encodable = true) :
    ∀ f ∈ fs, (f.2.renderWith rt.toRuntime quoted).all p = f.2.allStrings q := by
  cases fs with
  | nil =>
    intro f hf
    cases hf
  | cons g gs =>
    intro f hf
    rcases List.mem_cons.mp hf with h | h
    · rw [h]
      exact render_all hrepr hp hq g.2 (hfs g List.mem_cons_self)
    · exact render_all_fields hrepr hp hq gs (fun z hz => hfs z (List.mem_cons_of_mem _ hz)) f h
end

end Characters

/-- An escape is printable ASCII, and other characters stand for themselves. -/
theorem escapeChar_cases (c : Nat) : (32 ≤ c ∧ escapeChar c = [c]) ∨
    (c < 128 ∧ ∀ x ∈ escapeChar c, 32 ≤ x ∧ x < 128) := by
  by_cases h : c < 128
  · exact .inr ⟨h, (show ∀ c < 128, ∀ x ∈ escapeChar c, 32 ≤ x ∧ x < 128 by decide) c h⟩
  · left
    refine ⟨by omega, ?_⟩
    unfold escapeChar
    rw [if_neg (by omega), if_neg (by omega), if_neg (by omega), if_neg (by omega),
      if_neg (by omega), if_neg (by omega), if_neg (by omega), if_neg (by omega)]

/-- Where ASCII passes a test, a literal passes it as its string does. -/
theorem literalAll_eq {p : Nat → Bool} (hp : ∀ c, c < 128 → p c = true) (s : PyStr) :
    literalAll p s = s.all p := by
  unfold literalAll
  induction s with
  | nil => rfl
  | cons c s ih =>
    rw [List.flatMap_cons, List.all_append, ih, List.all_cons]
    rcases escapeChar_cases c with ⟨_, h⟩ | ⟨hc, h⟩
    · rw [h, List.all_cons, List.all_nil, Bool.and_true]
    · rw [all_ascii (fun x _ hx => hp x hx) h, hp c hc]

/-- A literal has no control characters. -/
theorem literalAll_printable (s : PyStr) : literalAll (fun c => decide (32 ≤ c)) s = true := by
  unfold literalAll
  rw [List.all_eq_true]
  intro x hx
  obtain ⟨c, _, hx⟩ := List.mem_flatMap.mp hx
  rw [decide_eq_true_eq]
  rcases escapeChar_cases c with ⟨hc, h⟩ | ⟨_, h⟩
  · rw [h, List.mem_singleton] at hx
    rw [hx]
    exact hc
  · exact (h x hx).1

/-! ## §3. Decoding a canonical text. -/

mutual
theorem encodable_canonical (v : Json) : v.canonical.encodable = v.encodable := by
  cases v with
  | null => rfl
  | bool b => rfl
  | int n => rfl
  | float f => rfl
  | str s => rfl
  | list xs =>
    unfold Json.canonical
    rw [Json.encodable, Json.encodable, encodableItems_eq, encodableItems_eq, canonicalItems_eq,
      List.all_map]
    exact all_congr_mem (encodable_canonical_items xs)
  | dict fs =>
    unfold Json.canonical
    rw [Json.encodable, Json.encodable, encodableFields_eq, encodableFields_eq, canonicalFields_eq,
      (sortByKey_perm _).all_eq, List.all_map]
    exact all_congr_mem (encodable_canonical_fields fs)

theorem encodable_canonical_items (xs : List Json) :
    ∀ x ∈ xs, x.canonical.encodable = x.encodable := by
  cases xs with
  | nil =>
    intro x hx
    cases hx
  | cons y ys =>
    intro x hx
    rcases List.mem_cons.mp hx with h | h
    · rw [h]
      exact encodable_canonical y
    · exact encodable_canonical_items ys x h

theorem encodable_canonical_fields (fs : List (PyStr × Json)) :
    ∀ f ∈ fs, f.2.canonical.encodable = f.2.encodable := by
  cases fs with
  | nil =>
    intro f hf
    cases hf
  | cons g gs =>
    intro f hf
    rcases List.mem_cons.mp hf with h | h
    · rw [h]
      exact encodable_canonical g.2
    · exact encodable_canonical_fields gs f h
end

/-- **One digest**: it does not depend on the order of fields. -/
theorem sha256Json_canonical (rt : Runtime) (v : Json) :
    sha256Json rt v.canonical = sha256Json rt v := by
  unfold sha256Json canonicalJson
  rw [encodable_canonical, render_eq_renderWith, render_eq_renderWith, render_canonical]

/-- The walk over the fields of an object visits each of them. -/
theorem walkFiniteFields_ok {root path : PyStr} {depth : Nat} {fs : List (PyStr × Json)} :
    walkFiniteFields root depth fs path = .ok () ↔
      ∀ f ∈ fs, walkFinite root depth f.2 (path ++ py "." ++ f.1) = .ok () := by
  induction fs with
  | nil => simp [walkFiniteFields]
  | cons f fs ih =>
    unfold walkFiniteFields
    constructor
    · intro h
      obtain ⟨_, hf, hrest⟩ := ok_of_bind h
      intro g hg
      rcases List.mem_cons.mp hg with rfl | hg
      · exact hf
      · exact ih.mp hrest g hg
    · intro h
      have hf := h f List.mem_cons_self
      have hrest := ih.mpr (fun g hg => h g (List.mem_cons_of_mem _ hg))
      rw [hf]
      exact hrest

theorem walkFiniteItems_ok {root path : PyStr} {depth : Nat} {xs : List Json} {i : Nat} :
    walkFiniteItems root depth xs i path = .ok () ↔
      ∀ j x, xs[j]? = some x →
        walkFinite root depth x (path ++ py "[" ++ decimal (i + j) ++ py "]") = .ok () := by
  induction xs generalizing i with
  | nil => simp [walkFiniteItems]
  | cons y ys ih =>
    unfold walkFiniteItems
    constructor
    · intro h
      obtain ⟨_, hy, hrest⟩ := ok_of_bind h
      intro j x hx
      cases j with
      | zero =>
        cases hx
        exact hy
      | succ j =>
        have hx' := ih.mp hrest j x hx
        rw [Nat.add_right_comm] at hx'
        exact hx'
    · intro h
      have hy := h 0 y rfl
      have hrest : walkFiniteItems root depth ys (i + 1) path = .ok () := by
        refine ih.mpr (fun j x hx => ?_)
        rw [Nat.add_right_comm]
        exact h (j + 1) x hx
      rw [Nat.add_zero] at hy
      rw [hy]
      exact hrest

mutual
/-- A walk that comes through one value comes through the sorted value, whatever the paths
it names. -/
theorem walkFinite_canonical {root path : PyStr} {depth : Nat} (v : Json)
    (h : walkFinite root depth v path = .ok ()) (path' : PyStr) :
    walkFinite root depth v.canonical path' = .ok () := by
  cases v with
  | null => exact h
  | bool b => exact h
  | int n => exact h
  | float f =>
    unfold Json.canonical
    unfold walkFinite at h ⊢
    split at h
    · cases h
    · next hd =>
      rw [if_neg hd]
      split at h
      · next hf => rw [if_pos hf]
      · cases h
  | str s => exact h
  | list xs =>
    unfold Json.canonical
    unfold walkFinite at h ⊢
    split at h
    · cases h
    · next hd =>
      rw [if_neg hd, canonicalItems_eq, walkFiniteItems_ok]
      rw [walkFiniteItems_ok] at h
      intro j x hx
      rw [List.getElem?_map] at hx
      obtain ⟨y, hy, rfl⟩ := Option.map_eq_some_iff.mp hx
      exact walkFinite_canonical_items xs y (List.mem_of_getElem? hy) (h j y hy) _
  | dict fs =>
    unfold Json.canonical
    unfold walkFinite at h ⊢
    split at h
    · cases h
    · next hd =>
      rw [if_neg hd, canonicalFields_eq, walkFiniteFields_ok]
      rw [walkFiniteFields_ok] at h
      intro f hf
      obtain ⟨g, hg, rfl⟩ := List.mem_map.mp ((sortByKey_perm _).mem_iff.mp hf)
      exact walkFinite_canonical_fields fs g hg (h g hg) _

theorem walkFinite_canonical_items {root path : PyStr} {depth : Nat} (xs : List Json) :
    ∀ x ∈ xs, walkFinite root depth x path = .ok () → ∀ path',
      walkFinite root depth x.canonical path' = .ok () := by
  cases xs with
  | nil =>
    intro x hx
    cases hx
  | cons y ys =>
    intro x hx
    rcases List.mem_cons.mp hx with h | h
    · rw [h]
      exact walkFinite_canonical y
    · exact walkFinite_canonical_items ys x h

theorem walkFinite_canonical_fields {root path : PyStr} {depth : Nat} (fs : List (PyStr × Json)) :
    ∀ f ∈ fs, walkFinite root depth f.2 path = .ok () → ∀ path',
      walkFinite root depth f.2.canonical path' = .ok () := by
  cases fs with
  | nil =>
    intro f hf
    cases hf
  | cons g gs =>
    intro f hf
    rcases List.mem_cons.mp hf with h | h
    · rw [h]
      exact walkFinite_canonical g.2
    · exact walkFinite_canonical_fields gs f h
end

section Loader

variable {rt : Interpreter} {path : PyStr}

/-- The documents that the loader accepts. -/
theorem strictJsonLoads_iff {payload : List UInt8} {maxBytes : Nat} {v : Json} :
    strictJsonLoads rt payload maxBytes path = .ok v ↔
      payload.length ≤ maxBytes ∧ payload ≠ [] ∧ loads rt path payload = .ok v ∧
        walkFinite path rt.walkDepth v path = .ok () ∧ v.encodable = true := by
  unfold strictJsonLoads
  constructor
  · intro h
    split at h
    · cases h
    next hlength =>
    split at h
    · cases h
    next hempty =>
    split at h
    · cases h
    · cases h
    · cases h
    · next decoded hdecoded =>
      obtain ⟨_, hfinite, h⟩ := ok_of_bind h
      cases h
      unfold assertFiniteJson at hfinite
      obtain ⟨_, hwalk, hfinite⟩ := ok_of_bind hfinite
      refine ⟨Nat.le_of_not_lt hlength, fun hnil => hempty (by rw [hnil]; rfl), hdecoded, hwalk, ?_⟩
      unfold canonicalJson at hfinite
      by_cases hv : v.encodable = true
      · exact hv
      · rw [if_neg hv] at hfinite
        cases hfinite
  · rintro ⟨hlength, hnil, hload, hwalk, hv⟩
    rw [if_neg (Nat.not_lt.mpr hlength), if_neg (by rw [List.isEmpty_iff]; exact hnil), hload]
    simp only
    unfold assertFiniteJson
    rw [hwalk]
    simp only [bind, Except.bind]
    unfold canonicalJson
    rw [if_pos hv]
    rfl

/-- The canonical text of a value, and any whitespace behind it, decodes to the sorted
value. -/
theorem loads_canonical_spaced (hrepr : ReprRoundTrip rt) {v : Json}
    (hencodable : v.encodable = true) (hnodup : v.nodupKeys = true)
    (hfits : v.fits rt.scanDepth = true) (hrange : v.allStrings inRange = true) {space : PyStr}
    (hspace : ∀ c ∈ space, isJsonSpace c = true) :
    loads rt path ((v.render rt.toRuntime ++ space).flatMap utf8Bytes) = .ok v.canonical := by
  have hsmall : ∀ c ∈ space, 9 ≤ c ∧ c ≤ 32 := by
    intro c hc
    have hc := hspace c hc
    simp only [isJsonSpace, Bool.or_eq_true, beq_iff_eq] at hc
    omega
  rw [render_eq_renderWith]
  have hwritable : v.Writable (fun _ => true) :=
    ⟨hencodable, hnodup, allStrings_mono (fun _ _ => rfl) v hrange⟩
  have hopen := render_opens quoting_quote hrepr hwritable
  have htext : inRange (v.renderWith rt.toRuntime quote ++ space) = true := by
    unfold inRange
    rw [List.all_append, render_all hrepr (fun c _ hc => decide_eq_true (by omega))
      (all_quote (fun c _ hc => decide_eq_true (by omega))) v hencodable]
    have hsame : literalAll (fun c => decide (c ≤ 0x10FFFF)) = inRange :=
      funext (fun s => literalAll_eq (fun c hc => decide_eq_true (by omega)) s)
    rw [hsame, hrange, Bool.true_and, List.all_eq_true]
    intro c hc
    have hle := (hsmall c hc).2
    exact decide_eq_true (by omega)
  have hnul : ∀ c ∈ v.renderWith rt.toRuntime quote ++ space, c ≠ 0 := by
    have hall := render_all hrepr (p := fun c => decide (32 ≤ c)) (fun c hc _ => decide_eq_true hc)
      (all_quote (fun c hc _ => decide_eq_true hc)) v hencodable
    have hsame : literalAll (fun c => decide (32 ≤ c)) = fun _ => true :=
      funext literalAll_printable
    rw [hsame, hwritable.strings, List.all_eq_true] at hall
    intro c hc
    rcases List.mem_append.mp hc with hc | hc
    · have hle := of_decide_eq_true (hall c hc)
      omega
    · have hle := (hsmall c hc).1
      omega
  have hstops : Stops space := by
    intro c hc
    have hle := (hsmall c (List.mem_of_mem_head? hc)).2
    refine ⟨?_, by omega, by omega, by omega⟩
    unfold isDigit
    rw [Bool.and_eq_false_iff, decide_eq_false_iff_not]
    omega
  have hscan := scanValue_render path quoting_quote hrepr v hwritable
    (2 * (v.renderWith rt.toRuntime quote ++ space).length + 1) rt.scanDepth space hfits
    (by rw [List.length_append]; omega) hstops
  have hopens : Opens (v.renderWith rt.toRuntime quote ++ space) := by
    obtain ⟨c, cs, heq, hc⟩ := hopen
    exact ⟨c, cs ++ space, by rw [heq]; rfl, hc⟩
  have hskip : skipSpace (v.renderWith rt.toRuntime quote ++ space)
      = v.renderWith rt.toRuntime quote ++ space := hopen.skipSpace
  have hend : skipSpace space = [] := List.dropWhile_eq_nil_iff.mpr hspace
  unfold loads
  rw [decodeText_utf8Encode hopens htext hnul]
  simp only [hskip, hscan, bind, Except.bind, hend]
  rfl

/-- The canonical text of a value without surrogates decodes to the sorted value. -/
theorem loads_canonical (hrepr : ReprRoundTrip rt) {v : Json} (hencodable : v.encodable = true)
    (hnodup : v.nodupKeys = true) (hfits : v.fits rt.scanDepth = true)
    (hrange : v.allStrings inRange = true) :
    loads rt path ((v.render rt.toRuntime).flatMap utf8Bytes) = .ok v.canonical := by
  have hnone : ∀ c ∈ ([] : PyStr), isJsonSpace c = true := fun _ hc => by cases hc
  have hspaced : loads rt path ((v.render rt.toRuntime ++ []).flatMap utf8Bytes) = .ok v.canonical :=
    loads_canonical_spaced hrepr hencodable hnodup hfits hrange hnone
  rwa [List.append_nil] at hspaced

/-- A digest is defined where no string has a surrogate. -/
theorem sha256Json_defined (hrepr : ReprRoundTrip rt) {v : Json} (hv : v.encodable = true) :
    (∃ digest, sha256Json rt.toRuntime v = .ok digest) ↔ v.allStrings noSurrogates = true := by
  have hall : noSurrogates (v.render rt.toRuntime) = v.allStrings noSurrogates := by
    have hascii : ∀ c, c < 128 → (!isSurrogate c) = true := by
      intro c hc
      have hplain : isSurrogate c = false := by
        unfold isSurrogate
        simp only [Bool.and_eq_false_iff, decide_eq_false_iff_not]
        omega
      rw [hplain]
      rfl
    have hsame : literalAll (fun c => !isSurrogate c) = noSurrogates :=
      funext (literalAll_eq hascii)
    rw [render_eq_renderWith, ← hsame]
    have hrender := render_all hrepr (fun c _ hc => hascii c hc)
      (all_quote (fun c _ hc => hascii c hc)) v hv
    rw [← hrender, hsame]
    rfl
  have hany : (v.render rt.toRuntime).any isSurrogate = !noSurrogates (v.render rt.toRuntime) := by
    unfold noSurrogates
    rw [List.any_eq_not_all_not]
  unfold sha256Json canonicalJson
  rw [if_pos hv]
  simp only [bind, Except.bind]
  unfold sha256Text utf8Encode
  rw [hany, hall]
  cases v.allStrings noSurrogates with
  | true => simp
  | false => simp

end Loader

/-! ## §4. The result. -/

/-- **A value can be hashed for good**: its digest is defined, and its canonical text, as
UTF-8, is accepted again under every limit that admits it, as a value with the same digest. -/
def Hashable (rt : Interpreter) (path : PyStr) (v : Json) : Prop :=
  ∃ digest, sha256Json rt.toRuntime v = .ok digest ∧
    ∃ text bytes, canonicalJson rt.toRuntime v = .ok text ∧ utf8Encode text = some bytes ∧
      ∀ limit, bytes.length ≤ limit →
        ∃ w, strictJsonLoads rt bytes limit path = .ok w ∧ sha256Json rt.toRuntime w = .ok digest

/-- The text of a document has surrogates in escaped pairs only. -/
def SpellsPairs (payload : List UInt8) : Prop :=
  ∀ text, decodeText payload = some text → pairedFrom text false = true

/-- **What the strict loader accepts can be hashed exactly if its text has no surrogate by
itself**, encoded or escaped. -/
theorem strict_json_hashable (rt : Interpreter) (hrepr : ReprRoundTrip rt) (payload : List UInt8)
    (maxBytes : Nat) (path : PyStr) (v : Json)
    (h : strictJsonLoads rt payload maxBytes path = .ok v) :
    Hashable rt path v ↔ SpellsPairs payload := by
  obtain ⟨_, _, hload, hwalk, hencodable⟩ := strictJsonLoads_iff.mp h
  obtain ⟨text, htext, hnodup, hfits, hpaired, hrange⟩ := loads_scanned rt path hload
  have hspells : SpellsPairs payload ↔ v.allStrings noSurrogates = true := by
    rw [hpaired]
    unfold SpellsPairs
    rw [htext]
    simp
  rw [hspells, ← sha256Json_defined hrepr hencodable]
  constructor
  · rintro ⟨digest, hdigest, _⟩
    exact ⟨digest, hdigest⟩
  · rintro ⟨digest, hdigest⟩
    refine ⟨digest, hdigest, v.render rt.toRuntime,
      (v.render rt.toRuntime).flatMap utf8Bytes, ?_, ?_, ?_⟩
    · unfold canonicalJson
      rw [if_pos hencodable]
    · unfold sha256Json canonicalJson at hdigest
      rw [if_pos hencodable] at hdigest
      simp only [bind, Except.bind] at hdigest
      unfold sha256Text at hdigest
      unfold utf8Encode at hdigest ⊢
      split at hdigest
      · next bytes hbytes =>
        split at hbytes
        · cases hbytes
        · next hany => rw [if_neg hany]
      · cases hdigest
    · intro limit hlimit
      have hback := @loads_canonical rt path hrepr v hencodable hnodup hfits
        (hrange (decodeText_inRange htext))
      refine ⟨v.canonical, strictJsonLoads_iff.mpr ⟨hlimit, ?_, hback, ?_, ?_⟩, ?_⟩
      · intro hnil
        rw [hnil] at hback
        cases hback
      · exact walkFinite_canonical v hwalk path
      · rw [encodable_canonical]
        exact hencodable
      · rw [sha256Json_canonical]
        exact hdigest

/-! Two documents: `"\ud800"`, and `{"b":[1,true],"a":"\ud83d\ude00"}`. -/

/-- A runtime for documents without floats. -/
def integerRuntime : Interpreter where
  toRuntime := { Runtime.ascii with floatRepr := fun f => decimal f.bits.toNat ++ py ".0" }
  floatOfText s := ⟨BitVec.ofNat 64 (natOfDigits (s.takeWhile isDigit))⟩
  strRepr s := [39] ++ s ++ [39]
  scanDepth := 1000
  walkDepth := 900
  hmacSha256 _ _ := []
  fromisoformat_fails s e h := by
    simp only [Runtime.ascii] at h
    split at h
    · cases h
    · cases h
      rfl
  toDouble := id
  toDouble_mono _ _ h := h
  toDouble_int := id_exact

theorem integerRuntime_repr : ReprRoundTrip integerRuntime := by
  intro f _
  have hdot : py ".0" = [46, 48] := by decide
  show FloatText (decimal f.bits.toNat ++ py ".0") ∧
    (⟨BitVec.ofNat 64 (natOfDigits ((decimal f.bits.toNat ++ py ".0").takeWhile isDigit))⟩
      : PyFloat) = f
  rw [hdot]
  constructor
  · exact ⟨false, decimal f.bits.toNat, [46, 48], [], by simp [signText], decimal_whole _,
      .inr ⟨48, [], rfl, rfl, fun c hc => by cases hc⟩, .inl rfl, by simp⟩
  · have htake := (@takeWhile_digits _ [46, 48]
      (fun c hc => isDigit_of_mem_decimal (n := f.bits.toNat) hc)
      (fun c hc => by cases hc; rfl)).1
    rw [htake, natOfDigits_decimal, BitVec.ofNat_toNat]
    simp

/-- `"\ud800"`. -/
def loneDocument : List UInt8 := [34, 92, 117, 100, 56, 48, 48, 34]

/-- `{"b":[1,true],"a":"\ud83d\ude00"}`. -/
def pairDocument : List UInt8 :=
  [123, 34, 98, 34, 58, 91, 49, 44, 116, 114, 117, 101, 93, 44, 34, 97, 34, 58, 34,
    92, 117, 100, 56, 51, 100, 92, 117, 100, 101, 48, 48, 34, 125]

/-- The lone surrogate is accepted, and cannot be hashed. -/
theorem strict_json_lone_surrogate : ∃ v,
    strictJsonLoads integerRuntime loneDocument 1000 (py "payload") = .ok v ∧
      sha256Json integerRuntime.toRuntime v = .error .unicodeEncodeError ∧
      ¬ Hashable integerRuntime (py "payload") v := by
  have hrun : (strictJsonLoads integerRuntime loneDocument 1000 (py "payload")).toOption.map
      (Json.pyEq · (.str [0xD800])) = some true := by decide +kernel
  cases hv : strictJsonLoads integerRuntime loneDocument 1000 (py "payload") with
  | error e =>
    rw [hv] at hrun
    cases hrun
  | ok v =>
    rw [hv] at hrun
    have hstring : v = .str [0xD800] := eq_str_of_pyEq (Option.some.inj hrun)
    subst hstring
    have hdigest : sha256Json integerRuntime.toRuntime (.str [0xD800])
        = .error .unicodeEncodeError := rfl
    refine ⟨_, rfl, hdigest, ?_⟩
    rintro ⟨digest, h, _⟩
    rw [hdigest] at h
    cases h

theorem strict_json_hashable_pair : ∃ v,
    strictJsonLoads integerRuntime pairDocument 1000 (py "payload") = .ok v ∧
      Hashable integerRuntime (py "payload") v := by
  have hrun : (strictJsonLoads integerRuntime pairDocument 1000 (py "payload")).toOption.isSome
      = true := by decide +kernel
  have hspells : (decodeText pairDocument).all (fun text => pairedFrom text false) = true := by
    decide +kernel
  cases hv : strictJsonLoads integerRuntime pairDocument 1000 (py "payload") with
  | error e =>
    rw [hv] at hrun
    cases hrun
  | ok v =>
    refine ⟨v, rfl, (strict_json_hashable integerRuntime integerRuntime_repr pairDocument 1000
      (py "payload") v hv).mpr ?_⟩
    intro text htext
    rw [htext] at hspells
    exact hspells

end Lyte
