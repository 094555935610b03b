import Mathlib.Data.List.Nodup
import Lyte.Domain.AsciiJson
import Lyte.Domain.Decode

/-
  Lyte.Domain.RoundTrip — canonical text decodes to what it was written for.

  `json.loads` on the text of a value gives the value back with the fields of
  every object sorted by key (`Json.canonical`).  The theorem is about any way to
  write string literals that the scanner reads back (`Quoting`), so it holds with
  and without `ensure_ascii`.

      scanValue_render     the scanner reads the text of a value, whatever follows;
      render_canonical     sorting the fields does not change the text.

  Of `float.__repr__` it is used that it writes a JSON number that `float` reads
  back (`ReprRoundTrip`).
-/

namespace Lyte

open Transact

/-! ## §1. Digits. -/

theorem isDigit_of_mem_decimal {n c : Nat} (h : c ∈ decimal n) : isDigit c = true := by
  obtain ⟨x, hx, rfl⟩ := List.mem_map.mp h
  have hdigit := Nat.isDigit_of_mem_toDigits (by decide) (by decide) hx
  rw [Char.isDigit, Bool.and_eq_true, decide_eq_true_eq, decide_eq_true_eq] at hdigit
  unfold isDigit
  rw [Bool.and_eq_true, decide_eq_true_eq, decide_eq_true_eq]
  exact ⟨hdigit.1, hdigit.2⟩

theorem natOfDigits_decimal (n : Nat) : natOfDigits (decimal n) = n := by
  have hfold : ∀ (cs : List Char) (k : Nat),
      (cs.map Char.toNat).foldl (fun n c => n * 10 + (c - 48)) k = Nat.ofDigitChars 10 cs k := by
    intro cs
    induction cs with
    | nil => exact fun k => (Nat.ofDigitChars_nil).symm
    | cons c cs ih =>
      intro k
      rw [List.map_cons, List.foldl_cons, ih, Nat.ofDigitChars_cons, Nat.mul_comm k 10]
      rfl
  unfold natOfDigits decimal
  rw [hfold]
  exact Nat.ofDigitChars_ten_toDigits

/-- The whole part of a number: digits without a needless zero in front. -/
structure WholeText (digits : PyStr) : Prop where
  all : ∀ c ∈ digits, isDigit c = true
  ne_nil : digits ≠ []
  zero : digits.head? = some 48 → digits = [48]

theorem decimal_whole (n : Nat) : WholeText (decimal n) := by
  refine ⟨fun c hc => isDigit_of_mem_decimal hc, ?_, ?_⟩
  · intro h
    exact Nat.toDigits_ne_nil (List.map_eq_nil_iff.mp h)
  · induction n using Nat.strongRecOn with
    | ind n ih =>
      intro h
      unfold decimal at h ⊢
      by_cases hn : n < 10
      · rw [Nat.toDigits_of_lt_base hn] at h ⊢
        rw [List.map_singleton, List.head?_cons] at h
        rw [List.map_singleton, Option.some.inj h]
      · -- the first digit of `n` is the first digit of `n / 10`, which is not zero
        exfalso
        rw [Nat.toDigits_of_base_le (by decide) (by omega), List.map_append,
          List.head?_append] at h
        have hfirst : (decimal (n / 10)).head? = some 48 := by
          cases hx : (decimal (n / 10)).head? with
          | none => simp [decimal] at hx
          | some x =>
            unfold decimal at hx
            rw [hx] at h
            exact h
        have hzero := ih (n / 10) (by omega) hfirst
        have hvalue := natOfDigits_decimal (n / 10)
        rw [hzero] at hvalue
        change 0 = n / 10 at hvalue
        omega

/-- The rest of a text does not go on with a number. -/
def Stops (rest : PyStr) : Prop :=
  ∀ c, rest.head? = some c → isDigit c = false ∧ c ≠ 46 ∧ c ≠ 101 ∧ c ≠ 69

theorem takeWhile_digits {ds rest : PyStr} (hd : ∀ c ∈ ds, isDigit c = true)
    (hr : ∀ c, rest.head? = some c → isDigit c = false) :
    (ds ++ rest).takeWhile isDigit = ds ∧ (ds ++ rest).dropWhile isDigit = rest := by
  induction ds with
  | nil =>
    cases rest with
    | nil => exact ⟨rfl, rfl⟩
    | cons c rest =>
      have hc := hr c rfl
      constructor
      · rw [List.nil_append, List.takeWhile_cons_of_neg (by rw [hc]; decide)]
      · rw [List.nil_append, List.dropWhile_cons_of_neg (by rw [hc]; decide)]
  | cons d ds ih =>
    have hhead := hd d List.mem_cons_self
    obtain ⟨htake, hdrop⟩ := ih (fun c hc => hd c (List.mem_cons_of_mem _ hc))
    constructor
    · rw [List.cons_append, List.takeWhile_cons_of_pos hhead, htake]
    · rw [List.cons_append, List.dropWhile_cons_of_pos hhead, hdrop]

/-- The sign of a number. -/
def signText (negative : Bool) : PyStr := if negative then [45] else []

theorem scanWhole_text {digits rest : PyStr} (negative : Bool) (hd : WholeText digits)
    (hr : ∀ c, rest.head? = some c → isDigit c = false) :
    scanWhole (signText negative ++ digits ++ rest) = some (negative, digits, rest) := by
  obtain ⟨d, ds, rfl⟩ := List.exists_cons_of_ne_nil hd.ne_nil
  have hdigit := hd.all d List.mem_cons_self
  have hminus : d ≠ 45 := by
    rintro rfl
    cases hdigit
  have hbehind : (if d = 48 then some (negative, [48], ds ++ rest)
      else if isDigit d then
        some (negative, d :: (ds ++ rest).takeWhile isDigit, (ds ++ rest).dropWhile isDigit)
      else none) = some (negative, d :: ds, rest) := by
    by_cases hzero : d = 48
    · subst hzero
      have hds := hd.zero rfl
      cases hds
      rfl
    · obtain ⟨htake, hdrop⟩ := takeWhile_digits (fun c hc => hd.all c (List.mem_cons_of_mem _ hc)) hr
      rw [if_neg hzero, if_pos hdigit, htake, hdrop]
  cases negative with
  | true => exact hbehind
  | false =>
    show scanWhole (d :: (ds ++ rest)) = _
    unfold scanWhole
    split
    next heq =>
    split at heq
    · next hd' =>
      cases hd'
      exact absurd rfl hminus
    · cases heq
      exact hbehind

/-- A fraction: nothing, or a dot and digits. -/
def FractionText (s : PyStr) : Prop :=
  s = [] ∨ ∃ d ds, s = 46 :: d :: ds ∧ isDigit d = true ∧ ∀ c ∈ ds, isDigit c = true

/-- An exponent: nothing, or a letter, a sign and digits. -/
def ExponentText (s : PyStr) : Prop :=
  s = [] ∨ ∃ sign d ds, (sign = [43] ∨ sign = [45] ∨ sign = []) ∧ s = 101 :: sign ++ d :: ds ∧
    isDigit d = true ∧ ∀ c ∈ ds, isDigit c = true

theorem scanFraction_text {s rest : PyStr} (hs : FractionText s)
    (hr : ∀ c, rest.head? = some c → isDigit c = false ∧ c ≠ 46) :
    scanFraction (s ++ rest) = (s, rest) := by
  rcases hs with rfl | ⟨d, ds, rfl, hd, hds⟩
  · cases rest with
    | nil => rfl
    | cons c rest =>
      have hc := (hr c rfl).2
      unfold scanFraction
      rw [List.nil_append]
      split
      · next d rest' heq =>
        cases heq
        exact absurd rfl hc
      · rfl
  · obtain ⟨htake, hdrop⟩ := takeWhile_digits hds (fun c hc => (hr c hc).1)
    show (if isDigit d then (46 :: d :: (ds ++ rest).takeWhile isDigit,
      (ds ++ rest).dropWhile isDigit) else ([], 46 :: d :: ds ++ rest)) = _
    rw [if_pos hd, htake, hdrop]

theorem isDigit_not_sign {d : Nat} (hd : isDigit d = true) : ¬ (d = 43 ∨ d = 45) := by
  rintro (rfl | rfl)
  · cases hd
  · cases hd

theorem scanExponent_text {s rest : PyStr} (hs : ExponentText s) (hr : Stops rest) :
    scanExponent (s ++ rest) = (s, rest) := by
  rcases hs with rfl | ⟨sign, d, ds, hsign, rfl, hd, hds⟩
  · cases rest with
    | nil => rfl
    | cons c rest =>
      obtain ⟨_, _, h101, h69⟩ := hr c rfl
      show (if c = 101 ∨ c = 69 then _ else ([], c :: rest)) = _
      rw [if_neg (by omega)]
  · obtain ⟨htake, hdrop⟩ := takeWhile_digits hds (fun c hc => (hr c hc).1)
    have hscan : scanSign (sign ++ d :: (ds ++ rest)) = (sign, d :: (ds ++ rest)) := by
      rcases hsign with rfl | rfl | rfl
      · rfl
      · rfl
      · show (if d = 43 ∨ d = 45 then ([d], ds ++ rest) else ([], d :: (ds ++ rest))) = _
        rw [if_neg (isDigit_not_sign hd)]
    have htext : 101 :: sign ++ d :: ds ++ rest = 101 :: (sign ++ d :: (ds ++ rest)) := by simp
    rw [htext]
    unfold scanExponent
    simp only [hscan, true_or, if_true, if_pos hd, htake, hdrop]

/-! ## §2. Numbers. -/

/-- The text of a JSON number that is a float. -/
structure FloatText (s : PyStr) : Prop where
  parts : ∃ negative whole fraction exponent, s = signText negative ++ whole ++ fraction ++ exponent ∧
    WholeText whole ∧ FractionText fraction ∧ ExponentText exponent ∧ fraction ++ exponent ≠ []

/-- **`float(repr(x)) == x`**: a finite float is written as a JSON number, and `float`
reads it back bit by bit. -/
def ReprRoundTrip (rt : Interpreter) : Prop :=
  ∀ f : PyFloat, f.isFinite = true →
    FloatText (rt.floatRepr f) ∧ rt.floatOfText (rt.floatRepr f) = f

theorem py_null : py "null" = [110, 117, 108, 108] := by decide
theorem py_true : py "true" = [116, 114, 117, 101] := by decide
theorem py_false : py "false" = [102, 97, 108, 115, 101] := by decide
theorem py_NaN : py "NaN" = [78, 97, 78] := by decide
theorem py_Infinity : py "Infinity" = [73, 110, 102, 105, 110, 105, 116, 121] := by decide
theorem py_minusInfinity :
    py "-Infinity" = [45, 73, 110, 102, 105, 110, 105, 116, 121] := by decide

theorem isPrefixOf_head_ne {w c : Nat} {ws cs : PyStr} (h : w ≠ c) :
    (w :: ws).isPrefixOf (c :: cs) = false := by
  rw [List.isPrefixOf_cons_cons, beq_eq_false_iff_ne.mpr h, Bool.false_and]

section Numbers

variable (rt : Interpreter) (path : PyStr)

/-- A text that begins with a digit, or with a minus and a digit, is no word. -/
theorem scanAtom_of_digit (cs : PyStr) (negative : Bool) {d : Nat} (hd : isDigit d = true) :
    scanAtom rt path (signText negative ++ d :: cs) =
      match scanWhole (signText negative ++ d :: cs) with
      | none => .error .malformed
      | some (negative, digits, rest) => do
          let fraction := scanFraction rest
          let exponent := scanExponent fraction.2
          let v ← numberValue rt negative digits (fraction.1 ++ exponent.1)
          return (v, exponent.2) := by
  have hne : ∀ w, isDigit w = false → w ≠ d := by
    rintro w hw rfl
    rw [hd] at hw
    cases hw
  -- no word begins like a number; `-Infinity` differs from it in the second character
  have hletter : ∀ w ws, isDigit w = false → w ≠ 45 →
      (w :: ws).isPrefixOf (signText negative ++ d :: cs) = false := by
    intro w ws hw hminus
    cases negative with
    | true => exact isPrefixOf_head_ne hminus
    | false => exact isPrefixOf_head_ne (hne w hw)
  have hminf : [45, 73, 110, 102, 105, 110, 105, 116, 121].isPrefixOf
      (signText negative ++ d :: cs) = false := by
    cases negative with
    | true =>
      show [45, 73, 110, 102, 105, 110, 105, 116, 121].isPrefixOf (45 :: d :: cs) = false
      rw [List.isPrefixOf_cons_cons, isPrefixOf_head_ne (hne 73 rfl), Bool.and_false]
    | false => exact isPrefixOf_head_ne (hne 45 rfl)
  unfold scanAtom
  rw [py_null, py_true, py_false, py_NaN, py_Infinity, py_minusInfinity, hminf,
    hletter 110 _ rfl (by decide), hletter 116 _ rfl (by decide), hletter 102 _ rfl (by decide),
    hletter 78 _ rfl (by decide), hletter 73 _ rfl (by decide)]
  rfl

/-- The scanner reads a number that is written in its parts. -/
theorem scanAtom_number {whole fraction exponent rest : PyStr} (negative : Bool)
    (hw : WholeText whole) (hf : FractionText fraction) (he : ExponentText exponent)
    (hr : Stops rest) :
    scanAtom rt path (signText negative ++ whole ++ (fraction ++ (exponent ++ rest))) =
      (numberValue rt negative whole (fraction ++ exponent)).map (fun v => (v, rest)) := by
  have hexponent : ∀ c, (exponent ++ rest).head? = some c → isDigit c = false ∧ c ≠ 46 := by
    intro c hc
    rcases he with rfl | ⟨sign, d, ds, _, rfl, _, _⟩
    · exact ⟨(hr c hc).1, (hr c hc).2.1⟩
    · cases hc
      exact ⟨rfl, by decide⟩
  have hfraction : ∀ c, (fraction ++ (exponent ++ rest)).head? = some c → isDigit c = false := by
    intro c hc
    rcases hf with rfl | ⟨d, ds, rfl, _, _⟩
    · exact (hexponent c hc).1
    · cases hc
      rfl
  obtain ⟨d, ds, rfl⟩ := List.exists_cons_of_ne_nil hw.ne_nil
  have hscan := scanWhole_text negative hw hfraction
  have hatom := scanAtom_of_digit rt path (ds ++ (fraction ++ (exponent ++ rest))) negative
    (hw.all d List.mem_cons_self)
  have htext : signText negative ++ d :: ds ++ (fraction ++ (exponent ++ rest))
      = signText negative ++ d :: (ds ++ (fraction ++ (exponent ++ rest))) := by simp
  rw [htext] at hscan ⊢
  rw [hatom, hscan]
  simp only
  rw [scanFraction_text hf hexponent]
  simp only
  rw [scanExponent_text he hr]
  cases numberValue rt negative (d :: ds) (fraction ++ exponent) with
  | error e => rfl
  | ok v => rfl

theorem decimalInt_eq (n : Int) : decimalInt n = signText (decide (n < 0)) ++ decimal n.natAbs := by
  cases n with
  | ofNat n => rfl
  | negSucc n =>
    have hneg : decide (Int.negSucc n < 0) = true := decide_eq_true (Int.negSucc_lt_zero n)
    rw [hneg]
    rfl

theorem scanAtom_int {n : Int} {rest : PyStr} (hn : (decimal n.natAbs).length ≤ 4300)
    (hr : Stops rest) : scanAtom rt path (decimalInt n ++ rest) = .ok (.int n, rest) := by
  have hscan := scanAtom_number rt path (decide (n < 0)) (decimal_whole n.natAbs) (.inl rfl)
    (.inl rfl) hr
  rw [decimalInt_eq]
  rw [List.nil_append, List.nil_append] at hscan
  rw [hscan]
  unfold numberValue
  have hempty : (([] : PyStr) ++ []).isEmpty = true := rfl
  rw [hempty, if_pos rfl, if_neg (by omega), natOfDigits_decimal]
  have hvalue : (if decide (n < 0) = true then -(n.natAbs : Int) else n.natAbs) = n := by
    by_cases hneg : n < 0
    · rw [if_pos (decide_eq_true hneg)]
      omega
    · rw [if_neg (by simpa using hneg)]
      omega
  rw [hvalue]
  rfl

theorem scanAtom_float {rt : Interpreter} (hrepr : ReprRoundTrip rt) {f : PyFloat}
    (hf : f.isFinite = true) {rest : PyStr} (hr : Stops rest) :
    scanAtom rt path (rt.floatRepr f ++ rest) = .ok (.float f, rest) := by
  obtain ⟨⟨negative, whole, fraction, exponent, htext, hw, hfr, he, hne⟩, hback⟩ := hrepr f hf
  have hscan := scanAtom_number rt path negative hw hfr he hr
  have hcs : rt.floatRepr f ++ rest
      = signText negative ++ whole ++ (fraction ++ (exponent ++ rest)) := by
    rw [htext]
    simp only [List.append_assoc]
  rw [hcs, hscan]
  unfold numberValue
  have hempty : (fraction ++ exponent).isEmpty = false := by
    rw [List.isEmpty_eq_false_iff]
    exact hne
  have hsame : (if negative then [45] else []) ++ whole ++ (fraction ++ exponent)
      = rt.floatRepr f := by
    rw [htext]
    simp only [List.append_assoc]
    rfl
  rw [hempty, hsame, hback]
  rfl

/-- A number begins with a digit or a minus. -/
theorem number_head {whole : PyStr} (cs : PyStr) (negative : Bool) (hw : WholeText whole) :
    ∃ c rest, signText negative ++ whole ++ cs = c :: rest ∧ (c = 45 ∨ isDigit c = true) := by
  obtain ⟨d, ds, rfl⟩ := List.exists_cons_of_ne_nil hw.ne_nil
  cases negative with
  | true => exact ⟨45, d :: ds ++ cs, rfl, .inl rfl⟩
  | false => exact ⟨d, ds ++ cs, rfl, .inr (hw.all d List.mem_cons_self)⟩

end Numbers

/-! ## §3. Strings. -/

/-- String literals are written so that the scanner reads them back. -/
structure Quoting (quoted : PyStr → PyStr) (ok : PyStr → Bool) : Prop where
  reads : ∀ s, ok s = true → ∃ body, quoted s = 34 :: body ∧
    ∀ rest, scanString (body ++ rest) false [] = some (s, rest)

theorem hex_control : ∀ c < 32, hex4? 48 48 (hexDigit (c / 16)) (hexDigit (c % 16)) = some c := by
  decide

theorem pushEscaped_low (c : Nat) (acc : PyStr) : pushEscaped false c acc = c :: acc := by
  cases acc with
  | nil => rfl
  | cons hi acc => rfl

/-- An escape of two characters. -/
theorem scanString_short {e x : Nat} (he : e ≠ 117) (hx : escaped? e = some x) (rest acc : PyStr)
    (afterHigh : Bool) :
    scanString (92 :: e :: rest) afterHigh acc = scanString rest false (x :: acc) := by
  rw [scanString.eq_def]
  simp only [if_neg (show ¬ (92 : Nat) = 34 by decide), if_true, if_neg he, hx]

/-- An escape of six characters. -/
theorem scanString_unicode {h₁ h₂ h₃ h₄ x : Nat} (hx : hex4? h₁ h₂ h₃ h₄ = some x)
    (rest acc : PyStr) (afterHigh : Bool) :
    scanString (92 :: 117 :: h₁ :: h₂ :: h₃ :: h₄ :: rest) afterHigh acc
      = scanString rest (isHighSurrogate x) (pushEscaped afterHigh x acc) := by
  rw [scanString.eq_def]
  simp only [if_neg (show ¬ (92 : Nat) = 34 by decide), if_true, hx]

/-- A character that stands for itself. -/
theorem scanString_plain {c : Nat} (h34 : c ≠ 34) (h92 : c ≠ 92) (h32 : ¬ c < 32)
    (rest acc : PyStr) (afterHigh : Bool) :
    scanString (c :: rest) afterHigh acc = scanString rest false (c :: acc) := by
  rw [scanString.eq_def]
  simp only [if_neg h34, if_neg h92, if_neg h32]

/-- An escape is read as the character that it is for. -/
theorem scanString_escapeChar (c : Nat) (rest acc : PyStr) :
    scanString (escapeChar c ++ rest) false acc = scanString rest false (c :: acc) := by
  unfold escapeChar
  split
  · next h =>
    rw [h]
    exact scanString_short (by decide) rfl rest acc false
  split
  · next h =>
    rw [h]
    exact scanString_short (by decide) rfl rest acc false
  split
  · next h =>
    rw [h]
    exact scanString_short (by decide) rfl rest acc false
  split
  · next h =>
    rw [h]
    exact scanString_short (by decide) rfl rest acc false
  split
  · next h =>
    rw [h]
    exact scanString_short (by decide) rfl rest acc false
  split
  · next h =>
    rw [h]
    exact scanString_short (by decide) rfl rest acc false
  split
  · next h =>
    rw [h]
    exact scanString_short (by decide) rfl rest acc false
  split
  · next hctl =>
    have hhigh : isHighSurrogate c = false := by
      unfold isHighSurrogate
      rw [Bool.and_eq_false_iff, decide_eq_false_iff_not, decide_eq_false_iff_not]
      omega
    refine (scanString_unicode (hex_control c hctl) rest acc false).trans ?_
    rw [hhigh, pushEscaped_low]
  · next h34 h92 _ _ _ _ _ hctl => exact scanString_plain h34 h92 hctl rest acc false

theorem scanString_quote (s rest acc : PyStr) :
    scanString (s.flatMap escapeChar ++ 34 :: rest) false acc = some (acc.reverse ++ s, rest) := by
  induction s generalizing acc with
  | nil =>
    rw [List.flatMap_nil, List.nil_append, List.append_nil, scanString.eq_def]
    rfl
  | cons c s ih =>
    rw [List.flatMap_cons, List.append_assoc, scanString_escapeChar, ih, List.reverse_cons,
      List.append_assoc]
    rfl

/-- `ensure_ascii=False` writes every string so. -/
theorem quoting_quote : Quoting quote (fun _ => true) := by
  constructor
  intro s _
  refine ⟨s.flatMap escapeChar ++ [34], rfl, fun rest => ?_⟩
  rw [List.append_assoc]
  exact scanString_quote s rest []

/-! ## §4. Fields sorted by key. -/

/-- Insert a field into fields sorted by key. -/
def insertByKey {β : Type} (f : PyStr × β) : List (PyStr × β) → List (PyStr × β)
  | [] => [f]
  | g :: gs => if strLe f.1 g.1 then f :: g :: gs else g :: insertByKey f gs

def sortByKey {β : Type} : List (PyStr × β) → List (PyStr × β)
  | [] => []
  | f :: fs => insertByKey f (sortByKey fs)

theorem insertField_eq (f : PyStr × PyStr) (gs : List (PyStr × PyStr)) :
    insertField f gs = insertByKey f gs := by
  induction gs with
  | nil => rfl
  | cons g gs ih =>
    unfold insertField insertByKey
    rw [ih]

theorem sortFields_eq (fs : List (PyStr × PyStr)) : sortFields fs = sortByKey fs := by
  induction fs with
  | nil => rfl
  | cons f fs ih =>
    unfold sortFields sortByKey
    rw [ih, insertField_eq]

section Sorting

variable {β γ : Type}

theorem insertByKey_perm (f : PyStr × β) (gs : List (PyStr × β)) :
    (insertByKey f gs).Perm (f :: gs) := by
  induction gs with
  | nil => exact .refl _
  | cons g gs ih =>
    unfold insertByKey
    split
    · exact .refl _
    · exact (ih.cons g).trans (.swap f g gs)

theorem sortByKey_perm (fs : List (PyStr × β)) : (sortByKey fs).Perm fs := by
  induction fs with
  | nil => exact .refl _
  | cons f fs ih => exact (insertByKey_perm f _).trans (ih.cons f)

/-- Only the keys decide about the order. -/
theorem insertByKey_map (g : β → γ) (f : PyStr × β) (fs : List (PyStr × β)) :
    insertByKey (f.1, g f.2) (fs.map (fun x => (x.1, g x.2)))
      = (insertByKey f fs).map (fun x => (x.1, g x.2)) := by
  induction fs with
  | nil => rfl
  | cons x fs ih =>
    rw [List.map_cons]
    unfold insertByKey
    split
    · rfl
    · rw [ih, List.map_cons]

theorem sortByKey_map (g : β → γ) (fs : List (PyStr × β)) :
    sortByKey (fs.map (fun x => (x.1, g x.2))) = (sortByKey fs).map (fun x => (x.1, g x.2)) := by
  induction fs with
  | nil => rfl
  | cons f fs ih =>
    rw [List.map_cons]
    unfold sortByKey
    rw [ih, insertByKey_map]

/-- Fields in the order of their keys. -/
def KeySorted (fs : List (PyStr × β)) : Prop := fs.Pairwise (fun a b => strLe a.1 b.1 = true)

theorem insertByKey_sorted (f : PyStr × β) {gs : List (PyStr × β)} (h : KeySorted gs) :
    KeySorted (insertByKey f gs) := by
  induction gs with
  | nil => exact List.pairwise_singleton _ f
  | cons g gs ih =>
    obtain ⟨hg, hgs⟩ := List.pairwise_cons.mp h
    unfold insertByKey
    by_cases hfg : strLe f.1 g.1 = true
    · rw [if_pos hfg]
      refine List.pairwise_cons.mpr ⟨?_, h⟩
      intro x hx
      rcases List.mem_cons.mp hx with rfl | hx
      · exact hfg
      · exact strLe_trans hfg (hg x hx)
    · rw [if_neg hfg]
      refine List.pairwise_cons.mpr ⟨?_, ih hgs⟩
      intro x hx
      rcases List.mem_cons.mp ((insertByKey_perm f gs).mem_iff.mp hx) with rfl | hx
      · exact (strLe_total x.1 g.1).resolve_left hfg
      · exact hg x hx

theorem sortByKey_sorted (fs : List (PyStr × β)) : KeySorted (sortByKey fs) := by
  induction fs with
  | nil => exact List.Pairwise.nil
  | cons f fs ih => exact insertByKey_sorted f ih

theorem sortByKey_of_sorted {fs : List (PyStr × β)} (h : KeySorted fs) : sortByKey fs = fs := by
  induction fs with
  | nil => rfl
  | cons f fs ih =>
    obtain ⟨hf, hfs⟩ := List.pairwise_cons.mp h
    unfold sortByKey
    rw [ih hfs]
    cases fs with
    | nil => rfl
    | cons g gs =>
      unfold insertByKey
      rw [if_pos (hf g List.mem_cons_self)]

theorem eq_of_key {fs : List (PyStr × β)} (hn : (fs.map Prod.fst).Nodup) {f g : PyStr × β}
    (hf : f ∈ fs) (hg : g ∈ fs) (hkey : f.1 = g.1) : f = g :=
  List.inj_on_of_nodup_map hn hf hg hkey

/-- Fields with distinct keys are sorted in one way only. -/
theorem sortByKey_congr {fs gs : List (PyStr × β)} (hn : (fs.map Prod.fst).Nodup)
    (hperm : fs.Perm gs) : sortByKey fs = sortByKey gs := by
  have hboth : (sortByKey fs).Perm (sortByKey gs) :=
    (sortByKey_perm fs).trans (hperm.trans (sortByKey_perm gs).symm)
  refine List.Perm.eq_of_pairwise ?_ (sortByKey_sorted fs) (sortByKey_sorted gs) hboth
  intro f g hf hg hle hge
  have hf' := (sortByKey_perm fs).mem_iff.mp hf
  have hg' := hperm.mem_iff.mpr ((sortByKey_perm gs).mem_iff.mp hg)
  exact eq_of_key hn hf' hg' (strLe_antisymm hle hge)

end Sorting

mutual
/-- The value with the fields of every object sorted by key. -/
def Json.canonical : Json → Json
  | .list xs => .list (canonicalItems xs)
  | .dict fs => .dict (sortByKey (canonicalFields fs))
  | v => v

def Json.canonicalItems : List Json → List Json
  | [] => []
  | x :: xs => x.canonical :: canonicalItems xs

def Json.canonicalFields : List (PyStr × Json) → List (PyStr × Json)
  | [] => []
  | (k, v) :: fs => (k, v.canonical) :: canonicalFields fs
end

theorem canonicalItems_eq (xs : List Json) : Json.canonicalItems xs = xs.map Json.canonical := by
  induction xs with
  | nil => rfl
  | cons x xs ih =>
    unfold Json.canonicalItems
    rw [ih, List.map_cons]

theorem canonicalFields_eq (fs : List (PyStr × Json)) :
    Json.canonicalFields fs = fs.map (fun f => (f.1, f.2.canonical)) := by
  induction fs with
  | nil => rfl
  | cons f fs ih =>
    unfold Json.canonicalFields
    rw [ih, List.map_cons]

section Render

variable (rt : Runtime) (quoted : PyStr → PyStr)

theorem renderItemsWith_eq (xs : List Json) :
    Json.renderItemsWith rt quoted xs = xs.map (Json.renderWith rt quoted) := by
  induction xs with
  | nil => rfl
  | cons x xs ih =>
    unfold Json.renderItemsWith
    rw [ih, List.map_cons]

theorem renderFieldsWith_eq (fs : List (PyStr × Json)) :
    Json.renderFieldsWith rt quoted fs = fs.map (fun f => (f.1, f.2.renderWith rt quoted)) := by
  induction fs with
  | nil => rfl
  | cons f fs ih =>
    unfold Json.renderFieldsWith
    rw [ih, List.map_cons]

/-- The text of a field. -/
def fieldText (f : PyStr × Json) : PyStr := quoted f.1 ++ [58] ++ f.2.renderWith rt quoted

theorem renderWith_list (xs : List Json) : (Json.list xs).renderWith rt quoted
    = [91] ++ joinComma (xs.map (Json.renderWith rt quoted)) ++ [93] := by
  conv_lhs => unfold Json.renderWith
  rw [renderItemsWith_eq]

/-- The text of an object is the text of its fields, sorted by key. -/
theorem renderWith_dict (fs : List (PyStr × Json)) : (Json.dict fs).renderWith rt quoted
    = [123] ++ joinComma ((sortByKey fs).map (fieldText rt quoted)) ++ [125] := by
  conv_lhs => unfold Json.renderWith
  rw [renderFieldsWith_eq, sortFields_eq, sortByKey_map, List.map_map]
  rfl

mutual
/-- **Sorting the fields does not change the text.** -/
theorem render_canonical (v : Json) : v.canonical.renderWith rt quoted = v.renderWith rt quoted := by
  cases v with
  | null => rfl
  | bool b => rfl
  | int n => rfl
  | float f => rfl
  | str s => rfl
  | list xs =>
    unfold Json.canonical
    rw [canonicalItems_eq, renderWith_list, renderWith_list, List.map_map]
    have hsame : xs.map (Json.renderWith rt quoted ∘ Json.canonical)
        = xs.map (Json.renderWith rt quoted) := List.map_congr_left (render_canonical_items xs)
    rw [hsame]
  | dict fs =>
    unfold Json.canonical
    rw [canonicalFields_eq, renderWith_dict, renderWith_dict, sortByKey_of_sorted (sortByKey_sorted _),
      sortByKey_map, List.map_map]
    have hsame : (sortByKey fs).map (fieldText rt quoted ∘ fun f => (f.1, f.2.canonical))
        = (sortByKey fs).map (fieldText rt quoted) := by
      refine List.map_congr_left (fun f hf => ?_)
      have hmem := (sortByKey_perm fs).mem_iff.mp hf
      show quoted f.1 ++ [58] ++ f.2.canonical.renderWith rt quoted = _
      rw [render_canonical_fields fs f hmem]
      rfl
    rw [hsame]

theorem render_canonical_items (xs : List Json) :
    ∀ x ∈ xs, x.canonical.renderWith rt quoted = x.renderWith rt quoted := by
  cases xs with
  | nil =>
    intro x hx
    cases hx
  | cons y ys =>
    intro x hx
    rcases List.mem_cons.mp hx with h | h
    · rw [h]
      exact render_canonical y
    · exact render_canonical_items ys x h

theorem render_canonical_fields (fs : List (PyStr × Json)) :
    ∀ f ∈ fs, f.2.canonical.renderWith rt quoted = f.2.renderWith rt quoted := by
  cases fs with
  | nil =>
    intro f hf
    cases hf
  | cons g gs =>
    intro f hf
    rcases List.mem_cons.mp hf with h | h
    · rw [h]
      exact render_canonical g.2
    · exact render_canonical_fields gs f h
end

/-- Objects with the same keys and the same text under each key have the same text. -/
theorem renderWith_dict_congr {fs gs : List (PyStr × Json)} (hf : (fs.map Prod.fst).Nodup)
    (hg : (gs.map Prod.fst).Nodup) (hkeys : ∀ f ∈ fs, f.1 ∈ gs.map Prod.fst)
    (htext : ∀ g ∈ gs, ∃ v, (g.1, v) ∈ fs ∧ v.renderWith rt quoted = g.2.renderWith rt quoted) :
    (Json.dict fs).renderWith rt quoted = (Json.dict gs).renderWith rt quoted := by
  have hkeysOf : ∀ hs : List (PyStr × Json),
      (hs.map (fun h => (h.1, h.2.renderWith rt quoted))).map Prod.fst = hs.map Prod.fst := by
    intro hs
    rw [List.map_map]
    rfl
  have hperm : (fs.map (fun f => (f.1, f.2.renderWith rt quoted))).Perm
      (gs.map (fun g => (g.1, g.2.renderWith rt quoted))) := by
    refine (List.perm_ext_iff_of_nodup ?_ ?_).mpr ?_
    · exact List.Nodup.of_map Prod.fst (by rw [hkeysOf]; exact hf)
    · exact List.Nodup.of_map Prod.fst (by rw [hkeysOf]; exact hg)
    · intro x
      constructor
      · intro hx
        obtain ⟨f, hmem, rfl⟩ := List.mem_map.mp hx
        obtain ⟨g, hgmem, hkey⟩ := List.mem_map.mp (hkeys f hmem)
        obtain ⟨v, hv, hsame⟩ := htext g hgmem
        obtain rfl : (g.1, v) = f := eq_of_key hf hv hmem hkey
        exact List.mem_map.mpr ⟨g, hgmem, by rw [hsame]⟩
      · intro hx
        obtain ⟨g, hgmem, rfl⟩ := List.mem_map.mp hx
        obtain ⟨v, hv, hsame⟩ := htext g hgmem
        exact List.mem_map.mpr ⟨(g.1, v), hv, by rw [hsame]⟩
  conv_lhs => unfold Json.renderWith
  conv_rhs => unfold Json.renderWith
  rw [renderFieldsWith_eq, renderFieldsWith_eq, sortFields_eq, sortFields_eq,
    sortByKey_congr (by rw [hkeysOf]; exact hf) hperm]

end Render

/-! ## §5. What can be written and read back. -/

mutual
/-- Every string of a value, its keys included, passes a test. -/
def Json.allStrings (p : PyStr → Bool) : Json → Bool
  | .str s => p s
  | .list xs => allStringsItems p xs
  | .dict fs => allStringsFields p fs
  | _ => true

def Json.allStringsItems (p : PyStr → Bool) : List Json → Bool
  | [] => true
  | x :: xs => x.allStrings p && allStringsItems p xs

def Json.allStringsFields (p : PyStr → Bool) : List (PyStr × Json) → Bool
  | [] => true
  | (k, v) :: fs => (p k && v.allStrings p) && allStringsFields p fs
end

mutual
/-- The value nests at most so many containers. -/
def Json.fits : Nat → Json → Bool
  | depth, .list xs => decide (depth ≠ 0) && fitsItems (depth - 1) xs
  | depth, .dict fs => decide (depth ≠ 0) && fitsFields (depth - 1) fs
  | _, _ => true

def Json.fitsItems : Nat → List Json → Bool
  | _, [] => true
  | depth, x :: xs => x.fits depth && fitsItems depth xs

def Json.fitsFields : Nat → List (PyStr × Json) → Bool
  | _, [] => true
  | depth, (_, v) :: fs => v.fits depth && fitsFields depth fs
end

theorem encodableItems_eq (xs : List Json) : Json.encodableItems xs = xs.all Json.encodable := by
  induction xs with
  | nil => rfl
  | cons x xs ih => rw [Json.encodableItems, ih, List.all_cons]

theorem encodableFields_eq (fs : List (PyStr × Json)) :
    Json.encodableFields fs = fs.all (fun f => f.2.encodable) := by
  induction fs with
  | nil => rfl
  | cons f fs ih => rw [Json.encodableFields, ih, List.all_cons]

theorem nodupKeysItems_eq (xs : List Json) : Json.nodupKeysItems xs = xs.all Json.nodupKeys := by
  induction xs with
  | nil => rfl
  | cons x xs ih => rw [Json.nodupKeysItems, ih, List.all_cons]

theorem nodupKeysFields_eq (fs : List (PyStr × Json)) :
    Json.nodupKeysFields fs = fs.all (fun f => f.2.nodupKeys) := by
  induction fs with
  | nil => rfl
  | cons f fs ih => rw [Json.nodupKeysFields, ih, List.all_cons]

theorem allStringsItems_eq (p : PyStr → Bool) (xs : List Json) :
    Json.allStringsItems p xs = xs.all (Json.allStrings p) := by
  induction xs with
  | nil => rfl
  | cons x xs ih => rw [Json.allStringsItems, ih, List.all_cons]

theorem allStringsFields_eq (p : PyStr → Bool) (fs : List (PyStr × Json)) :
    Json.allStringsFields p fs = fs.all (fun f => p f.1 && f.2.allStrings p) := by
  induction fs with
  | nil => rfl
  | cons f fs ih => rw [Json.allStringsFields, ih, List.all_cons]

theorem fitsItems_eq (depth : Nat) (xs : List Json) :
    Json.fitsItems depth xs = xs.all (Json.fits depth) := by
  induction xs with
  | nil => rfl
  | cons x xs ih => rw [Json.fitsItems, ih, List.all_cons]

theorem fitsFields_eq (depth : Nat) (fs : List (PyStr × Json)) :
    Json.fitsFields depth fs = fs.all (fun f => f.2.fits depth) := by
  induction fs with
  | nil => rfl
  | cons f fs ih => rw [Json.fitsFields, ih, List.all_cons]

mutual
/-- Every value nests finitely many containers. -/
theorem exists_fits (v : Json) : ∃ n, ∀ m, n ≤ m → v.fits m = true := by
  cases v with
  | list xs =>
    obtain ⟨n, hn⟩ := exists_fits_items xs
    refine ⟨n + 1, fun m hm => ?_⟩
    rw [Json.fits, fitsItems_eq, Bool.and_eq_true, decide_eq_true_eq, List.all_eq_true]
    exact ⟨by omega, fun x hx => hn x hx (m - 1) (by omega)⟩
  | dict fs =>
    obtain ⟨n, hn⟩ := exists_fits_fields fs
    refine ⟨n + 1, fun m hm => ?_⟩
    rw [Json.fits, fitsFields_eq, Bool.and_eq_true, decide_eq_true_eq, List.all_eq_true]
    exact ⟨by omega, fun f hf => hn f hf (m - 1) (by omega)⟩
  | null => exact ⟨0, fun _ _ => rfl⟩
  | bool b => exact ⟨0, fun _ _ => rfl⟩
  | int n => exact ⟨0, fun _ _ => rfl⟩
  | float f => exact ⟨0, fun _ _ => rfl⟩
  | str s => exact ⟨0, fun _ _ => rfl⟩

theorem exists_fits_items (xs : List Json) :
    ∃ n, ∀ x ∈ xs, ∀ m, n ≤ m → x.fits m = true := by
  cases xs with
  | nil => exact ⟨0, fun x hx => by cases hx⟩
  | cons y ys =>
    obtain ⟨n, hn⟩ := exists_fits y
    obtain ⟨k, hk⟩ := exists_fits_items ys
    refine ⟨n + k, fun x hx m hm => ?_⟩
    rcases List.mem_cons.mp hx with h | h
    · rw [h]
      exact hn m (by omega)
    · exact hk x h m (by omega)

theorem exists_fits_fields (fs : List (PyStr × Json)) :
    ∃ n, ∀ f ∈ fs, ∀ m, n ≤ m → f.2.fits m = true := by
  cases fs with
  | nil => exact ⟨0, fun f hf => by cases hf⟩
  | cons g gs =>
    obtain ⟨n, hn⟩ := exists_fits g.2
    obtain ⟨k, hk⟩ := exists_fits_fields gs
    refine ⟨n + k, fun f hf m hm => ?_⟩
    rcases List.mem_cons.mp hf with h | h
    · rw [h]
      exact hn m (by omega)
    · exact hk f h m (by omega)
end

/-- Objects with the same names in the same order, and the same sorted form, are equal field
by field. -/
theorem fields_of_canonical {fs gs : List (PyStr × Json)} (hn : (fs.map Prod.fst).Nodup)
    (hnames : fs.map Prod.fst = gs.map Prod.fst)
    (h : (Json.dict fs).canonical = (Json.dict gs).canonical) :
    fs.map (fun f => (f.1, f.2.canonical)) = gs.map (fun f => (f.1, f.2.canonical)) := by
  unfold Json.canonical at h
  rw [canonicalFields_eq, canonicalFields_eq, Json.dict.injEq] at h
  have hperm : (fs.map (fun f => (f.1, f.2.canonical))).Perm
      (gs.map (fun f => (f.1, f.2.canonical))) := by
    have hsorted := sortByKey_perm (fs.map (fun f => (f.1, f.2.canonical)))
    rw [h] at hsorted
    exact hsorted.symm.trans (sortByKey_perm _)
  have hkeys : ∀ hs : List (PyStr × Json),
      (hs.map (fun f => (f.1, f.2.canonical))).map Prod.fst = hs.map Prod.fst := by
    intro hs
    rw [List.map_map]
    rfl
  refine List.ext_getElem hperm.length_eq (fun i hi hi' => ?_)
  have hn' : ((gs.map (fun f => (f.1, f.2.canonical))).map Prod.fst).Nodup := by
    rw [hkeys, ← hnames]
    exact hn
  refine eq_of_key hn' (hperm.mem_iff.mp (List.getElem_mem hi)) (List.getElem_mem hi') ?_
  have hlength := congrArg List.length hnames
  simp only [List.length_map] at hi hi' hlength
  have hname : (fs.map Prod.fst)[i]? = (gs.map Prod.fst)[i]? := by rw [hnames]
  simp only [List.getElem?_map, List.getElem?_eq_getElem hi, List.getElem?_eq_getElem hi',
    Option.map_some, Option.some.injEq] at hname
  simp only [List.getElem_map]
  exact hname

mutual
theorem allStrings_mono {p q : PyStr → Bool} (h : ∀ s, p s = true → q s = true) (v : Json)
    (hv : v.allStrings p = true) : v.allStrings q = true := by
  cases v with
  | null => rfl
  | bool b => rfl
  | int n => rfl
  | float f => rfl
  | str s => exact h s hv
  | list xs =>
    rw [Json.allStrings, allStringsItems_eq, List.all_eq_true] at hv ⊢
    exact fun x hx => allStrings_mono_items h xs x hx (hv x hx)
  | dict fs =>
    rw [Json.allStrings, allStringsFields_eq, List.all_eq_true] at hv ⊢
    intro f hf
    have hfield := hv f hf
    rw [Bool.and_eq_true] at hfield ⊢
    exact ⟨h f.1 hfield.1, allStrings_mono_fields h fs f hf hfield.2⟩

theorem allStrings_mono_items {p q : PyStr → Bool} (h : ∀ s, p s = true → q s = true)
    (xs : List Json) : ∀ x ∈ xs, x.allStrings p = true → x.allStrings q = true := by
  cases xs with
  | nil =>
    intro x hx
    cases hx
  | cons y ys =>
    intro x hx
    rcases List.mem_cons.mp hx with hx | hx
    · rw [hx]
      exact allStrings_mono h y
    · exact allStrings_mono_items h ys x hx

theorem allStrings_mono_fields {p q : PyStr → Bool} (h : ∀ s, p s = true → q s = true)
    (fs : List (PyStr × Json)) :
    ∀ f ∈ fs, f.2.allStrings p = true → f.2.allStrings q = true := by
  cases fs with
  | nil =>
    intro f hf
    cases hf
  | cons g gs =>
    intro f hf
    rcases List.mem_cons.mp hf with hf | hf
    · rw [hf]
      exact allStrings_mono h g.2
    · exact allStrings_mono_fields h gs f hf
end

theorem fits_list {depth : Nat} {xs : List Json} (h : (Json.list xs).fits depth = true) :
    depth ≠ 0 ∧ ∀ x ∈ xs, x.fits (depth - 1) = true := by
  rw [Json.fits, fitsItems_eq, Bool.and_eq_true, decide_eq_true_eq, List.all_eq_true] at h
  exact h

theorem fits_dict {depth : Nat} {fs : List (PyStr × Json)} (h : (Json.dict fs).fits depth = true) :
    depth ≠ 0 ∧ ∀ f ∈ fs, f.2.fits (depth - 1) = true := by
  rw [Json.fits, fitsFields_eq, Bool.and_eq_true, decide_eq_true_eq, List.all_eq_true] at h
  exact h

/-- A value that can be written so that it is read back. -/
structure Json.Writable (ok : PyStr → Bool) (v : Json) : Prop where
  encodable : v.encodable = true
  nodup : v.nodupKeys = true
  strings : v.allStrings ok = true

theorem Json.Writable.item {ok : PyStr → Bool} {xs : List Json} (h : (Json.list xs).Writable ok) :
    ∀ x ∈ xs, x.Writable ok := by
  obtain ⟨he, hn, hs⟩ := h
  rw [Json.encodable, encodableItems_eq, List.all_eq_true] at he
  rw [Json.nodupKeys, nodupKeysItems_eq, List.all_eq_true] at hn
  rw [Json.allStrings, allStringsItems_eq, List.all_eq_true] at hs
  exact fun x hx => ⟨he x hx, hn x hx, hs x hx⟩

theorem Json.Writable.field {ok : PyStr → Bool} {fs : List (PyStr × Json)}
    (h : (Json.dict fs).Writable ok) :
    (fs.map Prod.fst).Nodup ∧ ∀ f ∈ fs, ok f.1 = true ∧ f.2.Writable ok := by
  obtain ⟨he, hn, hs⟩ := h
  rw [Json.encodable, encodableFields_eq, List.all_eq_true] at he
  rw [Json.nodupKeys, nodupKeysFields_eq, Bool.and_eq_true, decide_eq_true_eq,
    List.all_eq_true] at hn
  rw [Json.allStrings, allStringsFields_eq, List.all_eq_true] at hs
  refine ⟨hn.1, fun f hf => ?_⟩
  have hstrings := hs f hf
  rw [Bool.and_eq_true] at hstrings
  exact ⟨hstrings.1, he f hf, hn.2 f hf, hstrings.2⟩

mutual
/-- Two ways to write strings that agree on the strings of a value give it one text. -/
theorem renderWith_quoted (rt : Runtime) {p : PyStr → Bool} {quoted quoted' : PyStr → PyStr}
    (h : ∀ s, p s = true → quoted s = quoted' s) (v : Json) (hv : v.allStrings p = true) :
    v.renderWith rt quoted = v.renderWith rt quoted' := by
  cases v with
  | null => rfl
  | bool b => cases b <;> rfl
  | int n => rfl
  | float f => rfl
  | str s =>
    unfold Json.renderWith
    exact h s hv
  | list xs =>
    rw [Json.allStrings, allStringsItems_eq, List.all_eq_true] at hv
    rw [renderWith_list, renderWith_list,
      List.map_congr_left (renderWith_quoted_items rt h xs hv)]
  | dict fs =>
    rw [Json.allStrings, allStringsFields_eq, List.all_eq_true] at hv
    rw [renderWith_dict, renderWith_dict]
    have hsame : (sortByKey fs).map (fieldText rt quoted)
        = (sortByKey fs).map (fieldText rt quoted') := by
      refine List.map_congr_left (fun f hf => ?_)
      have hmem := (sortByKey_perm fs).mem_iff.mp hf
      have hstrings := hv f hmem
      rw [Bool.and_eq_true] at hstrings
      unfold fieldText
      rw [h f.1 hstrings.1, renderWith_quoted_fields rt h fs (fun g hg => ?_) f hmem]
      have hg := hv g hg
      rw [Bool.and_eq_true] at hg
      exact hg.2
    rw [hsame]

theorem renderWith_quoted_items (rt : Runtime) {p : PyStr → Bool} {quoted quoted' : PyStr → PyStr}
    (h : ∀ s, p s = true → quoted s = quoted' s) (xs : List Json)
    (hxs : ∀ x ∈ xs, x.allStrings p = true) :
    ∀ x ∈ xs, x.renderWith rt quoted = x.renderWith rt quoted' := by
  cases xs with
  | nil =>
    intro x hx
    cases hx
  | cons y ys =>
    intro x hx
    rcases List.mem_cons.mp hx with heq | hx
    · rw [heq]
      exact renderWith_quoted rt h y (hxs y List.mem_cons_self)
    · exact renderWith_quoted_items rt h ys (fun z hz => hxs z (List.mem_cons_of_mem _ hz)) x hx

theorem renderWith_quoted_fields (rt : Runtime) {p : PyStr → Bool}
    {quoted quoted' : PyStr → PyStr} (h : ∀ s, p s = true → quoted s = quoted' s)
    (fs : List (PyStr × Json)) (hfs : ∀ f ∈ fs, f.2.allStrings p = true) :
    ∀ f ∈ fs, f.2.renderWith rt quoted = f.2.renderWith rt quoted' := by
  cases fs with
  | nil =>
    intro f hf
    cases hf
  | cons g gs =>
    intro f hf
    rcases List.mem_cons.mp hf with heq | hf
    · rw [heq]
      exact renderWith_quoted rt h g.2 (hfs g List.mem_cons_self)
    · exact renderWith_quoted_fields rt h gs (fun z hz => hfs z (List.mem_cons_of_mem _ hz)) f hf
end

/-! ## §6. The scanner reads what was written. -/

theorem skipSpace_cons {c : Nat} {cs : PyStr} (h : isJsonSpace c = false) :
    skipSpace (c :: cs) = c :: cs := by
  unfold skipSpace
  rw [List.dropWhile_cons_of_neg (by rw [h]; decide)]

theorem stops_cons {c : Nat} {cs : PyStr} (h : c = 44 ∨ c = 93 ∨ c = 125) : Stops (c :: cs) := by
  intro x hx
  cases hx
  rcases h with rfl | rfl | rfl
  · decide
  · decide
  · decide

theorem stops_nil : Stops [] := fun _ h => by cases h

theorem duplicateKey_none {fs : List (PyStr × Json)} (h : (fs.map Prod.fst).Nodup)
    {seen : List PyStr} (hseen : ∀ f ∈ fs, f.1 ∉ seen) : duplicateKey? seen fs = none := by
  induction fs generalizing seen with
  | nil => rfl
  | cons f fs ih =>
    rw [List.map_cons, List.nodup_cons] at h
    have hhead := hseen f List.mem_cons_self
    unfold duplicateKey?
    rw [if_neg (by rw [List.contains_iff_mem]; exact hhead)]
    refine ih h.2 ?_
    intro g hg hmem
    rcases List.mem_cons.mp hmem with heq | hmem
    · exact h.1 (List.mem_map.mpr ⟨g, hg, heq⟩)
    · exact hseen g (List.mem_cons_of_mem _ hg) hmem

section Read

variable (rt : Interpreter) (path : PyStr) (quoted : PyStr → PyStr)

/-- The scanner reads the text of a value, whatever follows it. -/
def Reads (v : Json) : Prop :=
  ∀ (fuel depth : Nat) (rest : PyStr), v.fits depth = true →
    2 * (v.renderWith rt.toRuntime quoted).length + 1 ≤ fuel → Stops rest →
    scanValue rt path fuel depth (v.renderWith rt.toRuntime quoted ++ rest)
      = .ok (v.canonical, rest)

/-- A text begins with an ASCII character that is neither whitespace nor a closing
bracket. -/
def Opens (text : PyStr) : Prop :=
  ∃ c cs, text = c :: cs ∧ (isJsonSpace c = false ∧ c ≠ 93) ∧ 32 ≤ c ∧ c < 128

theorem opens_of_number {c : Nat} {cs : PyStr} (h : c = 45 ∨ isDigit c = true) :
    Opens (c :: cs) := by
  have hrange : 45 ≤ c ∧ c ≤ 57 := by
    rcases h with rfl | h
    · decide
    · unfold isDigit at h
      rw [Bool.and_eq_true, decide_eq_true_eq, decide_eq_true_eq] at h
      omega
  refine ⟨c, cs, rfl, ⟨?_, by omega⟩, by omega, by omega⟩
  simp only [isJsonSpace, Bool.or_eq_false_iff, beq_eq_false_iff_ne]
  omega

variable {rt quoted}

theorem Opens.skipSpace {text rest : PyStr} (h : Opens text) :
    skipSpace (text ++ rest) = text ++ rest := by
  obtain ⟨c, cs, rfl, ⟨hspace, _⟩, _⟩ := h
  exact skipSpace_cons hspace

/-- The text of a value opens. -/
theorem render_opens {ok : PyStr → Bool} (hq : Quoting quoted ok) (hrepr : ReprRoundTrip rt)
    {v : Json} (hv : v.Writable ok) : Opens (v.renderWith rt.toRuntime quoted) := by
  cases v with
  | null => exact ⟨110, [117, 108, 108], by unfold Json.renderWith; exact py_null, by decide⟩
  | bool b =>
    cases b with
    | true =>
      exact ⟨116, [114, 117, 101], by unfold Json.renderWith; exact py_true, by decide⟩
    | false =>
      exact ⟨102, [97, 108, 115, 101], by unfold Json.renderWith; exact py_false, by decide⟩
  | int n =>
    obtain ⟨c, cs, heq, hc⟩ :=
      number_head [] (decide (n < 0)) (decimal_whole n.natAbs)
    unfold Json.renderWith
    rw [decimalInt_eq, ← List.append_nil (_ ++ _), heq]
    exact opens_of_number hc
  | float f =>
    obtain ⟨⟨negative, whole, fraction, exponent, htext, hw, _, _, _⟩, _⟩ := hrepr f hv.encodable
    obtain ⟨c, cs, heq, hc⟩ := number_head (fraction ++ exponent) negative hw
    unfold Json.renderWith
    rw [htext, List.append_assoc, heq]
    exact opens_of_number hc
  | str s =>
    obtain ⟨body, hbody, _⟩ := hq.reads s hv.strings
    unfold Json.renderWith
    exact ⟨34, body, hbody, by decide⟩
  | list xs =>
    rw [renderWith_list]
    exact ⟨91, _, rfl, by decide⟩
  | dict fs =>
    rw [renderWith_dict]
    exact ⟨123, _, rfl, by decide⟩

theorem joinComma_cons_cons (x y : PyStr) (ys : List PyStr) :
    joinComma (x :: y :: ys) = x ++ 44 :: joinComma (y :: ys) := by
  rw [joinComma, List.append_assoc]
  · rfl
  · intro h
    cases h

theorem Opens.join {t : PyStr} (h : Opens t) (ts : List PyStr) : Opens (joinComma (t :: ts)) := by
  obtain ⟨c, cs, rfl, hc⟩ := h
  cases ts with
  | nil => exact ⟨c, cs, rfl, hc⟩
  | cons u us => exact ⟨c, _, by rw [joinComma_cons_cons]; rfl, hc⟩

/-- The last item of an array. -/
theorem scanItems_last {fuel depth : Nat} {cs rest : PyStr} {v : Json}
    (h : scanValue rt path fuel depth cs = .ok (v, 93 :: rest)) :
    scanItems rt path (fuel + 1) depth cs = .ok ([v], rest) := by
  unfold scanItems
  rw [h]
  simp only [bind, Except.bind]
  rw [skipSpace_cons rfl]
  rfl

/-- An item of an array that another one follows. -/
theorem scanItems_next {fuel depth : Nat} {cs cs' rest : PyStr} {v : Json} {vs : List Json}
    (h : scanValue rt path fuel depth cs = .ok (v, 44 :: cs')) (hskip : skipSpace cs' = cs')
    (hnext : scanItems rt path fuel depth cs' = .ok (vs, rest)) :
    scanItems rt path (fuel + 1) depth cs = .ok (v :: vs, rest) := by
  conv_lhs => unfold scanItems
  rw [h]
  simp only [bind, Except.bind]
  rw [skipSpace_cons rfl]
  simp only
  rw [hskip, hnext]
  rfl

/-- The last field of an object. -/
theorem scanFields_last {fuel depth : Nat} {cs cs' rest : PyStr} {key : PyStr} {v : Json}
    (hkey : scanString cs false [] = some (key, 58 :: cs')) (hskip : skipSpace cs' = cs')
    (h : scanValue rt path fuel depth cs' = .ok (v, 125 :: rest)) :
    scanFields rt path (fuel + 1) depth (34 :: cs) = .ok ([(key, v)], rest) := by
  conv_lhs => unfold scanFields
  simp only [hkey]
  rw [skipSpace_cons rfl]
  simp only [hskip, h, bind, Except.bind]
  rw [skipSpace_cons rfl]
  rfl

/-- A field of an object that another one follows. -/
theorem scanFields_next {fuel depth : Nat} {cs cs' cs'' rest : PyStr} {key : PyStr} {v : Json}
    {pairs : List (PyStr × Json)} (hkey : scanString cs false [] = some (key, 58 :: cs'))
    (hskip : skipSpace cs' = cs') (h : scanValue rt path fuel depth cs' = .ok (v, 44 :: cs''))
    (hskip' : skipSpace cs'' = cs'')
    (hnext : scanFields rt path fuel depth cs'' = .ok (pairs, rest)) :
    scanFields rt path (fuel + 1) depth (34 :: cs) = .ok ((key, v) :: pairs, rest) := by
  conv_lhs => unfold scanFields
  simp only [hkey]
  rw [skipSpace_cons rfl]
  simp only [hskip, h, bind, Except.bind]
  rw [skipSpace_cons rfl]
  simp only
  rw [hskip', hnext]
  rfl

/-- The items of an array up to its closing bracket. -/
theorem scanItems_read {xs : List Json} (hne : xs ≠ []) (hreads : ∀ x ∈ xs, Reads rt path quoted x)
    (hopens : ∀ x ∈ xs, Opens (x.renderWith rt.toRuntime quoted)) (fuel : Nat) {depth : Nat}
    (hfits : ∀ x ∈ xs, x.fits depth = true)
    (hfuel : 2 * (joinComma (xs.map (Json.renderWith rt.toRuntime quoted))).length + 2 ≤ fuel)
    (rest : PyStr) :
    scanItems rt path fuel depth
        (joinComma (xs.map (Json.renderWith rt.toRuntime quoted)) ++ 93 :: rest)
      = .ok (xs.map Json.canonical, rest) := by
  induction xs generalizing fuel with
  | nil => exact absurd rfl hne
  | cons x xs ih =>
    obtain ⟨fuel, rfl⟩ : ∃ n, fuel = n + 1 := ⟨fuel - 1, by omega⟩
    have hx := hreads x List.mem_cons_self
    cases xs with
    | nil =>
      simp only [List.map_cons, List.map_nil, joinComma] at hfuel ⊢
      exact scanItems_last path (hx fuel depth (93 :: rest) (hfits x List.mem_cons_self) (by omega)
        (stops_cons (.inr (.inl rfl))))
    | cons y ys =>
      have hopen := hopens y (List.mem_cons_of_mem _ List.mem_cons_self)
      obtain ⟨c, cs, hc, _⟩ := hopens x List.mem_cons_self
      have hpos : 0 < (x.renderWith rt.toRuntime quoted).length := by
        rw [hc]
        exact Nat.succ_pos _
      rw [List.map_cons, List.map_cons, joinComma_cons_cons, List.length_append,
        List.length_cons] at hfuel
      have htail := ih (List.cons_ne_nil _ _) (fun z hz => hreads z (List.mem_cons_of_mem _ hz))
        (fun z hz => hopens z (List.mem_cons_of_mem _ hz)) fuel
        (fun z hz => hfits z (List.mem_cons_of_mem _ hz)) (by rw [List.map_cons]; omega)
      rw [List.map_cons, List.map_cons, joinComma_cons_cons, List.append_assoc, List.cons_append]
      exact scanItems_next path (hx fuel depth _ (hfits x List.mem_cons_self) (by omega)
        (stops_cons (.inl rfl))) (hopen.join _).skipSpace htail

/-- The fields of an object up to its closing brace. -/
theorem scanFields_read {ok : PyStr → Bool} (hq : Quoting quoted ok) {fs : List (PyStr × Json)}
    (hne : fs ≠ []) (hkeys : ∀ f ∈ fs, ok f.1 = true)
    (hreads : ∀ f ∈ fs, Reads rt path quoted f.2)
    (hopens : ∀ f ∈ fs, Opens (f.2.renderWith rt.toRuntime quoted)) (fuel : Nat) {depth : Nat}
    (hfits : ∀ f ∈ fs, f.2.fits depth = true)
    (hfuel : 2 * (joinComma (fs.map (fieldText rt.toRuntime quoted))).length + 1 ≤ fuel)
    (rest : PyStr) :
    scanFields rt path fuel depth
        (joinComma (fs.map (fieldText rt.toRuntime quoted)) ++ 125 :: rest)
      = .ok (fs.map (fun f => (f.1, f.2.canonical)), rest) := by
  induction fs generalizing fuel with
  | nil => exact absurd rfl hne
  | cons f fs ih =>
    obtain ⟨body, hbody, hscan⟩ := hq.reads f.1 (hkeys f List.mem_cons_self)
    have hx := hreads f List.mem_cons_self
    have hopen := hopens f List.mem_cons_self
    have htext : fieldText rt.toRuntime quoted f
        = 34 :: (body ++ 58 :: f.2.renderWith rt.toRuntime quoted) := by
      unfold fieldText
      rw [hbody, List.append_assoc]
      rfl
    cases fs with
    | nil =>
      simp only [List.map_cons, List.map_nil, joinComma, htext] at hfuel ⊢
      rw [List.length_cons, List.length_append, List.length_cons] at hfuel
      obtain ⟨fuel, rfl⟩ : ∃ n, fuel = n + 1 := ⟨fuel - 1, by omega⟩
      rw [List.cons_append, List.append_assoc, List.cons_append]
      exact scanFields_last path (hscan _) hopen.skipSpace
        (hx fuel depth (125 :: rest) (hfits f List.mem_cons_self) (by omega)
          (stops_cons (.inr (.inr rfl))))
    | cons g gs =>
      have hquote : Opens (fieldText rt.toRuntime quoted g) := by
        obtain ⟨body', hbody', _⟩ :=
          hq.reads g.1 (hkeys g (List.mem_cons_of_mem _ List.mem_cons_self))
        unfold fieldText
        rw [hbody']
        exact ⟨34, _, rfl, by decide⟩
      rw [List.map_cons, List.map_cons, joinComma_cons_cons, htext, List.length_append,
        List.length_cons, List.length_append, List.length_cons, List.length_cons] at hfuel
      obtain ⟨fuel, rfl⟩ : ∃ n, fuel = n + 1 := ⟨fuel - 1, by omega⟩
      have htail := ih (List.cons_ne_nil _ _) (fun z hz => hkeys z (List.mem_cons_of_mem _ hz))
        (fun z hz => hreads z (List.mem_cons_of_mem _ hz))
        (fun z hz => hopens z (List.mem_cons_of_mem _ hz)) fuel
        (fun z hz => hfits z (List.mem_cons_of_mem _ hz)) (by rw [List.map_cons]; omega)
      rw [List.map_cons, List.map_cons, joinComma_cons_cons, htext, List.append_assoc,
        List.cons_append, List.cons_append, List.append_assoc, List.cons_append]
      exact scanFields_next path (hscan _) hopen.skipSpace
        (hx fuel depth _ (hfits f List.mem_cons_self) (by omega) (stops_cons (.inl rfl)))
        (hquote.join _).skipSpace htail

theorem scanValue_atom {fuel depth c : Nat} {cs : PyStr} (h34 : c ≠ 34) (h123 : c ≠ 123)
    (h91 : c ≠ 91) :
    scanValue rt path (fuel + 1) depth (c :: cs) = scanAtom rt path (c :: cs) := by
  unfold scanValue
  simp only [if_neg h34, if_neg h123, if_neg h91]

/-- Where the scanner reads a number, `scanValue` does. -/
theorem reads_of_number {c : Nat} {cs : PyStr} (h : c = 45 ∨ isDigit c = true) {fuel depth : Nat} :
    scanValue rt path (fuel + 1) depth (c :: cs) = scanAtom rt path (c :: cs) := by
  have hne : ∀ x, x ≠ 45 → isDigit x = false → c ≠ x := by
    rintro x hx hdigit rfl
    rcases h with h | h
    · exact hx h
    · rw [hdigit] at h
      cases h
  exact scanValue_atom path (hne 34 (by decide) rfl) (hne 123 (by decide) rfl)
    (hne 91 (by decide) rfl)

theorem reads_list {xs : List Json} (hreads : ∀ x ∈ xs, Reads rt path quoted x)
    (hopens : ∀ x ∈ xs, Opens (x.renderWith rt.toRuntime quoted)) :
    Reads rt path quoted (.list xs) := by
  intro fuel depth rest hfits hfuel _
  obtain ⟨hdepth, hall⟩ := fits_list hfits
  rw [renderWith_list] at hfuel ⊢
  simp only [List.length_append, List.length_cons, List.length_nil] at hfuel
  obtain ⟨fuel, rfl⟩ : ∃ n, fuel = n + 1 := ⟨fuel - 1, by omega⟩
  have htext : [91] ++ joinComma (xs.map (Json.renderWith rt.toRuntime quoted)) ++ [93] ++ rest
      = 91 :: (joinComma (xs.map (Json.renderWith rt.toRuntime quoted)) ++ 93 :: rest) := by simp
  rw [htext]
  unfold scanValue Json.canonical
  simp only [if_neg (show ¬ (91 : Nat) = 34 by decide), if_neg (show ¬ (91 : Nat) = 123 by decide),
    if_true, if_neg hdepth]
  rw [canonicalItems_eq]
  cases xs with
  | nil =>
    simp only [List.map_nil, joinComma, List.nil_append]
    rw [skipSpace_cons rfl]
    rfl
  | cons x xs =>
    have hopen := (hopens x List.mem_cons_self).join
      (xs.map (Json.renderWith rt.toRuntime quoted))
    have hitems := scanItems_read path (List.cons_ne_nil x xs) hreads hopens fuel hall
      (by omega) rest
    rw [List.map_cons] at hitems ⊢
    rw [hopen.skipSpace]
    obtain ⟨c, cs, hc, ⟨_, h93⟩, _⟩ := hopen
    rw [hc, List.cons_append] at hitems ⊢
    split
    · next heq =>
      cases heq
      exact absurd rfl h93
    · rw [hitems]
      rfl

theorem reads_dict {ok : PyStr → Bool} (hq : Quoting quoted ok) {fs : List (PyStr × Json)}
    (hnodup : (fs.map Prod.fst).Nodup) (hkeys : ∀ f ∈ fs, ok f.1 = true)
    (hreads : ∀ f ∈ fs, Reads rt path quoted f.2)
    (hopens : ∀ f ∈ fs, Opens (f.2.renderWith rt.toRuntime quoted)) :
    Reads rt path quoted (.dict fs) := by
  intro fuel depth rest hfits hfuel _
  obtain ⟨hdepth, hall⟩ := fits_dict hfits
  have hmem : ∀ {f}, f ∈ sortByKey fs → f ∈ fs := fun hf => (sortByKey_perm fs).mem_iff.mp hf
  rw [renderWith_dict] at hfuel ⊢
  simp only [List.length_append, List.length_cons, List.length_nil] at hfuel
  obtain ⟨fuel, rfl⟩ : ∃ n, fuel = n + 1 := ⟨fuel - 1, by omega⟩
  have htext : [123] ++ joinComma ((sortByKey fs).map (fieldText rt.toRuntime quoted)) ++ [125]
        ++ rest
      = 123 :: (joinComma ((sortByKey fs).map (fieldText rt.toRuntime quoted)) ++ 125 :: rest) := by
    simp
  rw [htext]
  unfold scanValue Json.canonical
  simp only [if_neg (show ¬ (123 : Nat) = 34 by decide), if_true, if_neg hdepth]
  rw [canonicalFields_eq, sortByKey_map]
  have hperm := sortByKey_perm fs
  have hunique : uniqueObject rt path ((sortByKey fs).map (fun f => (f.1, f.2.canonical)))
      = .ok (.dict ((sortByKey fs).map (fun f => (f.1, f.2.canonical)))) := by
    unfold uniqueObject
    rw [duplicateKey_none]
    · rw [List.map_map]
      exact (hperm.map Prod.fst).nodup_iff.mpr hnodup
    · exact fun f _ => List.not_mem_nil
  cases hsort : sortByKey fs with
  | nil =>
    simp only [List.map_nil, joinComma, List.nil_append]
    rw [skipSpace_cons rfl]
    rfl
  | cons f gs =>
    have hsub : ∀ {g}, g ∈ f :: gs → g ∈ fs := fun hg => hmem (hsort ▸ hg)
    have hquote : Opens (fieldText rt.toRuntime quoted f) := by
      obtain ⟨body', hbody', _⟩ := hq.reads f.1 (hkeys f (hsub List.mem_cons_self))
      unfold fieldText
      rw [hbody']
      exact ⟨34, _, rfl, by decide⟩
    have hhead : ∃ cs, joinComma ((f :: gs).map (fieldText rt.toRuntime quoted)) = 34 :: cs := by
      obtain ⟨body', hbody', _⟩ := hq.reads f.1 (hkeys f (hsub List.mem_cons_self))
      rw [List.map_cons]
      cases gs with
      | nil => exact ⟨_, by rw [List.map_nil, joinComma, fieldText, hbody']; rfl⟩
      | cons g gs => exact ⟨_, by rw [List.map_cons, joinComma_cons_cons, fieldText, hbody']; rfl⟩
    rw [hsort] at hfuel hunique
    have hfields := scanFields_read path hq (List.cons_ne_nil f gs)
      (fun g hg => hkeys g (hsub hg)) (fun g hg => hreads g (hsub hg))
      (fun g hg => hopens g (hsub hg)) fuel (fun g hg => hall g (hsub hg))
      (by omega) rest
    obtain ⟨cs, hcs⟩ := hhead
    rw [hcs, List.cons_append] at hfields ⊢
    rw [skipSpace_cons rfl]
    simp only [hfields, bind, Except.bind, hunique]
    rfl

mutual
/-- **The scanner reads what was written**: the value, with its fields sorted. -/
theorem scanValue_render {ok : PyStr → Bool} (hq : Quoting quoted ok) (hrepr : ReprRoundTrip rt)
    (v : Json) (hv : v.Writable ok) : Reads rt path quoted v := by
  cases v with
  | null =>
    intro fuel depth rest _ hfuel hrest
    obtain ⟨fuel, rfl⟩ : ∃ n, fuel = n + 1 := ⟨fuel - 1, by omega⟩
    unfold Json.renderWith
    rw [py_null]
    exact scanValue_atom path (by decide) (by decide) (by decide)
  | bool b =>
    intro fuel depth rest _ hfuel hrest
    obtain ⟨fuel, rfl⟩ : ∃ n, fuel = n + 1 := ⟨fuel - 1, by omega⟩
    cases b with
    | true =>
      unfold Json.renderWith
      rw [py_true]
      exact scanValue_atom path (by decide) (by decide) (by decide)
    | false =>
      unfold Json.renderWith
      rw [py_false]
      exact scanValue_atom path (by decide) (by decide) (by decide)
  | int n =>
    intro fuel depth rest _ hfuel hrest
    obtain ⟨fuel, rfl⟩ : ∃ n, fuel = n + 1 := ⟨fuel - 1, by omega⟩
    have hdigits : (decimal n.natAbs).length ≤ 4300 := of_decide_eq_true hv.encodable
    have hatom := scanAtom_int rt path hdigits hrest
    obtain ⟨c, cs, heq, hc⟩ := number_head rest (decide (n < 0)) (decimal_whole n.natAbs)
    unfold Json.renderWith
    rw [decimalInt_eq] at hatom ⊢
    rw [heq] at hatom ⊢
    rw [reads_of_number path hc, hatom]
    rfl
  | float f =>
    intro fuel depth rest _ hfuel hrest
    obtain ⟨fuel, rfl⟩ : ∃ n, fuel = n + 1 := ⟨fuel - 1, by omega⟩
    have hatom := scanAtom_float path hrepr hv.encodable hrest
    obtain ⟨⟨negative, whole, fraction, exponent, htext, hw, _, _, _⟩, _⟩ := hrepr f hv.encodable
    obtain ⟨c, cs, heq, hc⟩ := number_head (fraction ++ exponent ++ rest) negative hw
    unfold Json.renderWith
    have hcs : rt.floatRepr f ++ rest = c :: cs := by
      rw [htext, ← heq]
      simp only [List.append_assoc]
    rw [hcs] at hatom ⊢
    rw [reads_of_number path hc, hatom]
    rfl
  | str s =>
    intro fuel depth rest _ hfuel hrest
    obtain ⟨fuel, rfl⟩ : ∃ n, fuel = n + 1 := ⟨fuel - 1, by omega⟩
    obtain ⟨body, hbody, hscan⟩ := hq.reads s hv.strings
    unfold Json.renderWith
    rw [hbody, List.cons_append]
    unfold scanValue
    simp only [if_true, hscan]
    rfl
  | list xs =>
    refine reads_list path (fun x hx => ?_) (fun x hx => render_opens hq hrepr (hv.item x hx))
    exact scanValue_render_items hq hrepr xs hv.item x hx
  | dict fs =>
    obtain ⟨hnodup, hfield⟩ := hv.field
    refine reads_dict path hq hnodup (fun f hf => (hfield f hf).1) (fun f hf => ?_)
      (fun f hf => render_opens hq hrepr (hfield f hf).2)
    exact scanValue_render_fields hq hrepr fs (fun f hf => (hfield f hf).2) f hf

theorem scanValue_render_items {ok : PyStr → Bool} (hq : Quoting quoted ok)
    (hrepr : ReprRoundTrip rt) (xs : List Json) (hxs : ∀ x ∈ xs, x.Writable ok) :
    ∀ x ∈ xs, Reads rt path quoted x := by
  cases xs with
  | nil =>
    intro x hx
    cases hx
  | cons y ys =>
    intro x hx
    rcases List.mem_cons.mp hx with h | h
    · rw [h]
      exact scanValue_render hq hrepr y (hxs y List.mem_cons_self)
    · exact scanValue_render_items hq hrepr ys (fun z hz => hxs z (List.mem_cons_of_mem _ hz)) x h

theorem scanValue_render_fields {ok : PyStr → Bool} (hq : Quoting quoted ok)
    (hrepr : ReprRoundTrip rt) (fs : List (PyStr × Json)) (hfs : ∀ f ∈ fs, f.2.Writable ok) :
    ∀ f ∈ fs, Reads rt path quoted f.2 := by
  cases fs with
  | nil =>
    intro f hf
    cases hf
  | cons g gs =>
    intro f hf
    rcases List.mem_cons.mp hf with h | h
    · rw [h]
      exact scanValue_render hq hrepr g.2 (hfs g List.mem_cons_self)
    · exact scanValue_render_fields hq hrepr gs (fun z hz => hfs z (List.mem_cons_of_mem _ hz)) f h
end

end Read

end Lyte
