import Mathlib.Algebra.Order.Ring.Rat
import Lyte.Domain.Canonical
import Lyte.Domain.Errors
import Lyte.Lib.Program

/-
  Lyte.Domain.Decode — `json.loads` on bytes.

  The bytes are decoded as `json.detect_encoding` says, lone surrogates
  included, and scanned by the grammar of Python's `json`: its whitespace, its
  strict strings, its numbers, and the three constants that `parse_constant`
  refuses.  `object_pairs_hook` sees every object when it is closed.

      loads_fails         the scanner never stops for want of fuel;
      loads_object_head   bytes that begin with any other ASCII character than
                          whitespace or `{` are no object, in any encoding.
-/

namespace Lyte

open Transact

/-! ## §1. Bytes to text. -/

/-- The encodings that `json.detect_encoding` tells apart. -/
inductive Encoding where
  | utf8 | utf8Sig
  | utf16 | utf16be | utf16le
  | utf32 | utf32be | utf32le
deriving DecidableEq

/-- `json.detect_encoding`: by a byte order mark, else by where the zeros are. -/
def detectEncoding (b : List Nat) : Encoding :=
  if [0x00, 0x00, 0xFE, 0xFF].isPrefixOf b || [0xFF, 0xFE, 0x00, 0x00].isPrefixOf b then .utf32
  else if [0xFE, 0xFF].isPrefixOf b || [0xFF, 0xFE].isPrefixOf b then .utf16
  else if [0xEF, 0xBB, 0xBF].isPrefixOf b then .utf8Sig
  else match b with
    | b0 :: b1 :: b2 :: b3 :: _ =>
        if b0 = 0 then (if b1 = 0 then .utf32be else .utf16be)
        else if b1 = 0 then (if b2 = 0 ∧ b3 = 0 then .utf32le else .utf16le)
        else .utf8
    | [b0, b1] => if b0 = 0 then .utf16be else if b1 = 0 then .utf16le else .utf8
    | _ => .utf8

def isTail (b : Nat) : Bool := 0x80 ≤ b && b < 0xC0

/-- `bytes.decode("utf-8", "surrogatepass")`. -/
def decodeUtf8 : List Nat → Option PyStr
  | [] => some []
  | a :: rest =>
      if a < 0x80 then (decodeUtf8 rest).map (a :: ·)
      else match rest with
        | [] => none
        | b :: rest =>
            if 0xC2 ≤ a && a < 0xE0 && isTail b then
              (decodeUtf8 rest).map (((a - 0xC0) * 64 + (b - 0x80)) :: ·)
            else match rest with
              | [] => none
              | c :: rest =>
                  if 0xE0 ≤ a && a < 0xF0 && isTail b && isTail c && (a != 0xE0 || 0xA0 ≤ b) then
                    (decodeUtf8 rest).map
                      (((a - 0xE0) * 4096 + (b - 0x80) * 64 + (c - 0x80)) :: ·)
                  else match rest with
                    | [] => none
                    | d :: rest =>
                        if 0xF0 ≤ a && a < 0xF5 && isTail b && isTail c && isTail d &&
                            (a != 0xF0 || 0x90 ≤ b) && (a != 0xF4 || b < 0x90) then
                          (decodeUtf8 rest).map (((a - 0xF0) * 262144 + (b - 0x80) * 4096
                            + (c - 0x80) * 64 + (d - 0x80)) :: ·)
                        else none

/-- The 16-bit units of a text; an odd byte is truncated data. -/
def units16 (big : Bool) : List Nat → Option (List Nat)
  | [] => some []
  | [_] => none
  | a :: b :: rest => (units16 big rest).map ((if big then a * 256 + b else b * 256 + a) :: ·)

def isHighSurrogate (c : Nat) : Bool := 0xD800 ≤ c && c < 0xDC00
def isLowSurrogate (c : Nat) : Bool := 0xDC00 ≤ c && c < 0xE000

/-- The code point of a surrogate pair. -/
def joinSurrogates (hi lo : Nat) : Nat := 0x10000 + (hi - 0xD800) * 1024 + (lo - 0xDC00)

/-- The code points of 16-bit units; `surrogatepass` keeps a lone surrogate. -/
def joinPairs : List Nat → PyStr
  | hi :: lo :: rest =>
      if isHighSurrogate hi && isLowSurrogate lo then joinSurrogates hi lo :: joinPairs rest
      else hi :: joinPairs (lo :: rest)
  | units => units

/-- The 32-bit units of a text, each a code point. -/
def units32 (big : Bool) : List Nat → Option PyStr
  | [] => some []
  | a :: b :: c :: d :: rest =>
      let n := if big then ((a * 256 + b) * 256 + c) * 256 + d
        else ((d * 256 + c) * 256 + b) * 256 + a
      if n ≤ 0x10FFFF then (units32 big rest).map (n :: ·) else none
  | _ => none

/-- `s.decode(detect_encoding(s), "surrogatepass")`; `none` where it raises
UnicodeDecodeError. -/
def decodeText (bytes : List UInt8) : Option PyStr :=
  let b := bytes.map UInt8.toNat
  match detectEncoding b with
  | .utf8 => decodeUtf8 b
  | .utf8Sig => decodeUtf8 (b.drop 3)
  | .utf16 => (units16 (b.head? == some 0xFE) (b.drop 2)).map joinPairs
  | .utf16be => (units16 true b).map joinPairs
  | .utf16le => (units16 false b).map joinPairs
  | .utf32 => units32 (b.head? == some 0x00) (b.drop 4)
  | .utf32be => units32 true b
  | .utf32le => units32 false b

/-! ## §2. Strings and numbers. -/

/-- The whitespace of JSON. -/
def isJsonSpace (c : Nat) : Bool := c == 32 || c == 9 || c == 10 || c == 13

def skipSpace (cs : PyStr) : PyStr := cs.dropWhile isJsonSpace

def hexValue? (c : Nat) : Option Nat :=
  if 48 ≤ c && c ≤ 57 then some (c - 48)
  else if 65 ≤ c && c ≤ 70 then some (c - 55)
  else if 97 ≤ c && c ≤ 102 then some (c - 87)
  else none

def hex4? (a b c d : Nat) : Option Nat := do
  let a ← hexValue? a
  let b ← hexValue? b
  let c ← hexValue? c
  let d ← hexValue? d
  return ((a * 16 + b) * 16 + c) * 16 + d

/-- What a backslash and one more character stand for. -/
def escaped? (c : Nat) : Option Nat :=
  if c = 34 then some 34
  else if c = 92 then some 92
  else if c = 47 then some 47
  else if c = 98 then some 8
  else if c = 102 then some 12
  else if c = 110 then some 10
  else if c = 114 then some 13
  else if c = 116 then some 9
  else none

/-- One `\\uXXXX` escape behind the characters read so far; the low half of a
surrogate pair joins the high half before it. -/
def pushEscaped (afterHigh : Bool) (c : Nat) : PyStr → PyStr
  | [] => [c]
  | hi :: acc => if afterHigh && isLowSurrogate c then joinSurrogates hi c :: acc else c :: hi :: acc

/-- `scanstring(s, end, strict=True)` behind the opening quote, with the string
so far in reverse, and whether it ends in an escaped high surrogate.  Returns
the string, and what follows the closing quote. -/
def scanString : PyStr → Bool → PyStr → Option (PyStr × PyStr)
  | [], _, _ => none
  | c :: rest, afterHigh, acc =>
      if c = 34 then some (acc.reverse, rest)
      else if c = 92 then
        match rest with
        | [] => none
        | e :: rest =>
            if e = 117 then
              match rest with
              | h1 :: h2 :: h3 :: h4 :: rest =>
                  match hex4? h1 h2 h3 h4 with
                  | none => none
                  | some x => scanString rest (isHighSurrogate x) (pushEscaped afterHigh x acc)
              | _ => none
            else
              match escaped? e with
              | none => none
              | some x => scanString rest false (x :: acc)
      else if c < 32 then none
      else scanString rest false (c :: acc)

/-- Decimal digits as a number. -/
def natOfDigits (ds : PyStr) : Nat := ds.foldl (fun n c => n * 10 + (c - 48)) 0

/-- The whole part of a number: its sign, its digits, and what follows. -/
def scanWhole (cs : PyStr) : Option (Bool × PyStr × PyStr) :=
  let (negative, cs) := match cs with
    | 45 :: rest => (true, rest)
    | _ => (false, cs)
  match cs with
  | [] => none
  | c :: rest =>
      if c = 48 then some (negative, [48], rest)
      else if isDigit c then
        some (negative, c :: rest.takeWhile isDigit, rest.dropWhile isDigit)
      else none

/-- A fraction, empty if there is none, and what follows. -/
def scanFraction (cs : PyStr) : PyStr × PyStr :=
  match cs with
  | 46 :: d :: rest =>
      if isDigit d then (46 :: d :: rest.takeWhile isDigit, rest.dropWhile isDigit) else ([], cs)
  | _ => ([], cs)

/-- The sign of an exponent. -/
def scanSign (cs : PyStr) : PyStr × PyStr :=
  match cs with
  | c :: rest => if c = 43 ∨ c = 45 then ([c], rest) else ([], cs)
  | [] => ([], [])

/-- An exponent, empty if there is none, and what follows. -/
def scanExponent (cs : PyStr) : PyStr × PyStr :=
  match cs with
  | e :: rest =>
      if e = 101 ∨ e = 69 then
        match (scanSign rest).2 with
        | d :: rest' =>
            if isDigit d then
              (e :: (scanSign rest).1 ++ d :: rest'.takeWhile isDigit, rest'.dropWhile isDigit)
            else ([], cs)
        | [] => ([], cs)
      else ([], cs)
  | [] => ([], [])

/-! ## §3. Values. -/

/-- Library functions of the interpreter that decoding and the connectors call
besides those of `Runtime`. -/
structure Interpreter extends Runtime where
  /-- `float(s)` on the text of a JSON number. -/
  floatOfText : PyStr → PyFloat
  /-- `repr(s)`. -/
  strRepr : PyStr → PyStr
  /-- The containers that the scanner may nest before it raises RecursionError. -/
  scanDepth : Nat
  /-- The frames that a walk over a value may nest. -/
  walkDepth : Nat
  /-- `hmac.new(key, data, hashlib.sha256).hexdigest()`. -/
  hmacSha256 : List UInt8 → List UInt8 → PyStr
  /-- `datetime.fromisoformat` fails with a ValueError. -/
  fromisoformat_fails : ∀ s e, fromisoformat s = .error e → e.isValueError = true
  /-- The binary64 number that an exact result is rounded to. -/
  toDouble : Rat → Rat
  toDouble_mono : ∀ x y, x ≤ y → toDouble x ≤ toDouble y
  toDouble_int : ∀ n : Int, n.natAbs ≤ 2 ^ 53 → toDouble n = n

/-- Without rounding, every integer is exact. -/
theorem id_exact : ∀ n : Int, n.natAbs ≤ 2 ^ 53 → id (n : Rat) = n := fun _ _ => rfl

/-- How decoding fails. -/
inductive DecodeError where
  /-- UnicodeDecodeError -/
  | undecodable
  /-- JSONDecodeError, RecursionError, or another ValueError of the scanner -/
  | malformed
  /-- what a hook raised -/
  | hook (e : Exn)
  /-- the scanner ran out of fuel: never (`loads_fails`) -/
  | fuel
deriving DecidableEq

/-- The first key that a list of pairs has twice, as a loop over them finds it. -/
def duplicateKey? (seen : List PyStr) : List (PyStr × Json) → Option PyStr
  | [] => none
  | (k, _) :: pairs => if seen.contains k then some k else duplicateKey? (k :: seen) pairs

section Scan

variable (rt : Interpreter) (path : PyStr)

/-- `unique_object` of `strict_json_loads`. -/
def uniqueObject (pairs : List (PyStr × Json)) : Except DecodeError Json :=
  match duplicateKey? [] pairs with
  | some key => .error (.hook (.payloadValidationError
      (path ++ py " contains duplicate key " ++ rt.strRepr key)))
  | none => .ok (.dict pairs)

/-- `reject_constant` of `strict_json_loads`. -/
def rejectConstant (value : String) : Except DecodeError (Json × PyStr) :=
  .error (.hook (.payloadValidationError (path ++ py " contains non-finite number " ++ py value)))

/-- A number as `json` converts it: `int` refuses more than 4300 digits. -/
def numberValue (negative : Bool) (digits fraction : PyStr) : Except DecodeError Json :=
  if fraction.isEmpty then
    if 4300 < digits.length then .error .malformed
    else .ok (.int (if negative then -(natOfDigits digits) else natOfDigits digits))
  else .ok (.float (rt.floatOfText ((if negative then [45] else []) ++ digits ++ fraction)))

/-- A value that is no container: literals, constants and numbers. -/
def scanAtom (cs : PyStr) : Except DecodeError (Json × PyStr) :=
  if (py "null").isPrefixOf cs then .ok (.null, cs.drop 4)
  else if (py "true").isPrefixOf cs then .ok (.bool true, cs.drop 4)
  else if (py "false").isPrefixOf cs then .ok (.bool false, cs.drop 5)
  else if (py "NaN").isPrefixOf cs then rejectConstant path "NaN"
  else if (py "Infinity").isPrefixOf cs then rejectConstant path "Infinity"
  else if (py "-Infinity").isPrefixOf cs then rejectConstant path "-Infinity"
  else match scanWhole cs with
    | none => .error .malformed
    | some (negative, digits, rest) => do
        let fraction := scanFraction rest
        let exponent := scanExponent fraction.2
        let v ← numberValue rt negative digits (fraction.1 ++ exponent.1)
        return (v, exponent.2)

mutual
/-- `scan_once`: a value, and what follows it. -/
def scanValue : Nat → Nat → PyStr → Except DecodeError (Json × PyStr)
  | 0, _, _ => .error .fuel
  | fuel + 1, depth, cs =>
      match cs with
      | [] => .error .malformed
      | c :: rest =>
          if c = 34 then
            match scanString rest false [] with
            | none => .error .malformed
            | some (s, rest) => .ok (.str s, rest)
          else if c = 123 then
            if depth = 0 then .error .malformed
            else match skipSpace rest with
              | 125 :: rest => .ok (.dict [], rest)
              | rest => do
                  let (pairs, rest) ← scanFields fuel (depth - 1) rest
                  let v ← uniqueObject rt path pairs
                  return (v, rest)
          else if c = 91 then
            if depth = 0 then .error .malformed
            else match skipSpace rest with
              | 93 :: rest => .ok (.list [], rest)
              | rest => do
                  let (items, rest) ← scanItems fuel (depth - 1) rest
                  return (.list items, rest)
          else scanAtom rt path (c :: rest)

/-- The pairs of an object up to its closing brace. -/
def scanFields : Nat → Nat → PyStr → Except DecodeError (List (PyStr × Json) × PyStr)
  | 0, _, _ => .error .fuel
  | fuel + 1, depth, cs =>
      match cs with
      | 34 :: rest =>
          match scanString rest false [] with
          | none => .error .malformed
          | some (key, rest) =>
              match skipSpace rest with
              | 58 :: rest => do
                  let (v, rest) ← scanValue fuel depth (skipSpace rest)
                  match skipSpace rest with
                  | 125 :: rest => return ([(key, v)], rest)
                  | 44 :: rest => do
                      let (pairs, rest) ← scanFields fuel depth (skipSpace rest)
                      return ((key, v) :: pairs, rest)
                  | _ => throw .malformed
              | _ => .error .malformed
      | _ => .error .malformed

/-- The items of an array up to its closing bracket. -/
def scanItems : Nat → Nat → PyStr → Except DecodeError (List Json × PyStr)
  | 0, _, _ => .error .fuel
  | fuel + 1, depth, cs => do
      let (v, rest) ← scanValue fuel depth cs
      match skipSpace rest with
      | 93 :: rest => return ([v], rest)
      | 44 :: rest => do
          let (items, rest) ← scanItems fuel depth (skipSpace rest)
          return (v :: items, rest)
      | _ => throw .malformed
end

/-- `json.loads(payload, object_pairs_hook=unique_object,
parse_constant=reject_constant)`. -/
def loads (payload : List UInt8) : Except DecodeError Json :=
  match decodeText payload with
  | none => .error .undecodable
  | some text => do
      let cs := skipSpace text
      let (v, rest) ← scanValue rt path (2 * cs.length + 1) rt.scanDepth cs
      if (skipSpace rest).isEmpty then return v else throw .malformed

/-! ## §4. What is left. -/

theorem skipSpace_length (cs : PyStr) : (skipSpace cs).length ≤ cs.length :=
  (List.dropWhile_sublist isJsonSpace).length_le

theorem scanString_length {cs acc s rest : PyStr} {afterHigh : Bool}
    (h : scanString cs afterHigh acc = some (s, rest)) : rest.length < cs.length := by
  fun_induction scanString cs afterHigh acc <;> simp_all <;> omega

theorem dropWhile_length (p : Nat → Bool) (cs : PyStr) : (cs.dropWhile p).length ≤ cs.length :=
  (List.dropWhile_sublist p).length_le

theorem scanWhole_length {cs digits rest : PyStr} {negative : Bool}
    (h : scanWhole cs = some (negative, digits, rest)) : rest.length < cs.length := by
  have hbehind : ∀ {xs : PyStr} {b : Bool}, (match xs with
      | [] => none
      | c :: rest =>
          if c = 48 then some (b, [48], rest)
          else if isDigit c then some (b, c :: rest.takeWhile isDigit, rest.dropWhile isDigit)
          else none) = some (negative, digits, rest) → rest.length < xs.length := by
    intro xs b hx
    cases xs with
    | nil => cases hx
    | cons c xs =>
      have hle := dropWhile_length isDigit xs
      simp only at hx
      split at hx
      · cases hx
        exact Nat.lt_succ_self _
      · split at hx
        · cases hx
          exact Nat.lt_succ_of_le hle
        · cases hx
  unfold scanWhole at h
  split at h
  next negative' cs' hsign =>
  have hlt := hbehind h
  split at hsign
  · cases hsign
    rw [List.length_cons]
    omega
  · cases hsign
    exact hlt

theorem scanFraction_length (cs : PyStr) : (scanFraction cs).2.length ≤ cs.length := by
  unfold scanFraction
  split
  · next d rest =>
    have hle := dropWhile_length isDigit rest
    split
    · simp only [List.length_cons]
      omega
    · exact Nat.le_refl _
  · exact Nat.le_refl _

theorem scanSign_length (cs : PyStr) : (scanSign cs).2.length ≤ cs.length := by
  unfold scanSign
  split
  · next c rest =>
    split
    · simp
    · exact Nat.le_refl _
  · exact Nat.le_refl _

theorem scanExponent_length (cs : PyStr) : (scanExponent cs).2.length ≤ cs.length := by
  unfold scanExponent
  split
  · next e rest =>
    have hsign := scanSign_length rest
    split
    · split
      · next d rest' hd =>
        have hle := dropWhile_length isDigit rest'
        rw [hd, List.length_cons] at hsign
        split
        · simp only [List.length_cons]
          omega
        · exact Nat.le_refl _
      · exact Nat.le_refl _
    · exact Nat.le_refl _
  · exact Nat.le_refl _

/-- How the scanner may fail with enough fuel; its hooks raise a
PayloadValidationError. -/
def DecodeError.expected : DecodeError → Bool
  | .undecodable => true
  | .malformed => true
  | .hook e => e.isPayloadValidationError
  | .fuel => false

/-- What the scanner promises with enough fuel: to fail as it may, and to leave
less than it got. -/
structure Enough {α : Type} (cs : PyStr) (r : Except DecodeError (α × PyStr)) : Prop where
  fails : ∀ e, r = .error e → e.expected = true
  rest : ∀ a rest, r = .ok (a, rest) → rest.length < cs.length

theorem enough_error {α : Type} {cs : PyStr} {e : DecodeError} (h : e.expected = true) :
    Enough cs (.error e : Except DecodeError (α × PyStr)) := by
  constructor
  · intro e' he
    cases he
    exact h
  · exact fun _ _ hok => by cases hok

theorem enough_ok {α : Type} {cs rest : PyStr} {a : α} (h : rest.length < cs.length) :
    Enough cs (.ok (a, rest) : Except DecodeError (α × PyStr)) := by
  constructor
  · exact fun _ he => by cases he
  · intro b rest' hok
    cases hok
    exact h

/-- A scan of a later part of the text, and a continuation. -/
theorem Enough.bind {α β : Type} {cs cs' : PyStr} {r : Except DecodeError (α × PyStr)}
    {f : α × PyStr → Except DecodeError (β × PyStr)} (h : Enough cs' r)
    (hf : ∀ a rest, rest.length < cs'.length → Enough cs (f (a, rest))) : Enough cs (r >>= f) := by
  cases r with
  | error e => exact enough_error (h.fails e rfl)
  | ok p =>
    obtain ⟨a, rest⟩ := p
    exact hf a rest (h.rest a rest rfl)

/-- A computation between two scans. -/
theorem enough_pure {α β : Type} {cs : PyStr} {r : Except DecodeError α}
    {f : α → Except DecodeError (β × PyStr)} (h : ∀ e, r = .error e → e.expected = true)
    (hf : ∀ a, Enough cs (f a)) : Enough cs (r >>= f) := by
  cases r with
  | error e => exact enough_error (h e rfl)
  | ok a => exact hf a

/-- A number is an int or a float. -/
theorem numberValue_cases (negative : Bool) (digits fraction : PyStr) :
    (∃ n, numberValue rt negative digits fraction = .ok (.int n)) ∨
      (∃ f, numberValue rt negative digits fraction = .ok (.float f)) ∨
      numberValue rt negative digits fraction = .error .malformed := by
  unfold numberValue
  by_cases hf : fraction.isEmpty = true
  · rw [if_pos hf]
    by_cases hlen : 4300 < digits.length
    · rw [if_pos hlen]
      exact .inr (.inr rfl)
    · rw [if_neg hlen]
      exact .inl ⟨_, rfl⟩
  · rw [if_neg hf]
    exact .inr (.inl ⟨_, rfl⟩)

theorem scanAtom_enough (cs : PyStr) : Enough cs (scanAtom rt path cs) := by
  have hword : ∀ {word : String} {n : Nat} (v : Json), (py word).isPrefixOf cs = true →
      (py word).length = n → 0 < n → Enough cs (.ok (v, cs.drop n)) := by
    intro word n v hp hn hpos
    have hle := (List.isPrefixOf_iff_prefix.mp hp).length_le
    refine enough_ok ?_
    rw [List.length_drop]
    omega
  unfold scanAtom rejectConstant
  split
  · next hp => exact hword _ hp rfl (by decide)
  split
  · next hp => exact hword _ hp rfl (by decide)
  split
  · next hp => exact hword _ hp rfl (by decide)
  split
  · exact enough_error rfl
  split
  · exact enough_error rfl
  split
  · exact enough_error rfl
  split
  · exact enough_error rfl
  · next negative digits rest hn =>
    have hlt := scanWhole_length hn
    have hfraction := scanFraction_length rest
    have hexponent := scanExponent_length (scanFraction rest).2
    refine enough_pure (fun e he => ?_) (fun v => enough_ok (by omega))
    rcases numberValue_cases rt negative digits ((scanFraction rest).1
      ++ (scanExponent (scanFraction rest).2).1) with ⟨n, hv⟩ | ⟨f, hv⟩ | hv
    · rw [hv] at he
      cases he
    · rw [hv] at he
      cases he
    · rw [hv] at he
      cases he
      rfl

theorem scanAtom_ne_dict {cs rest : PyStr} {fields : List (PyStr × Json)} :
    scanAtom rt path cs ≠ .ok (.dict fields, rest) := by
  unfold scanAtom rejectConstant
  intro h
  split at h
  · cases h
  split at h
  · cases h
  split at h
  · cases h
  split at h
  · cases h
  split at h
  · cases h
  split at h
  · cases h
  split at h
  · cases h
  · obtain ⟨v, hv, h⟩ := ok_of_bind h
    cases h
    rcases numberValue_cases rt _ _ _ with ⟨n, hn⟩ | ⟨f, hf⟩ | he
    · rw [hn] at hv
      cases hv
    · rw [hf] at hv
      cases hv
    · rw [he] at hv
      cases hv

theorem uniqueObject_fails (pairs : List (PyStr × Json)) :
    ∀ e, uniqueObject rt path pairs = .error e → e.expected = true := by
  intro e h
  unfold uniqueObject at h
  split at h
  · cases h
    rfl
  · cases h

/-- **The scanner never stops for want of fuel**: two units for every character
are enough. -/
theorem scan_enough (fuel : Nat) :
    (∀ depth cs, 2 * cs.length + 1 ≤ fuel → Enough cs (scanValue rt path fuel depth cs)) ∧
    (∀ depth cs, 2 * cs.length + 1 ≤ fuel → Enough cs (scanFields rt path fuel depth cs)) ∧
    ∀ depth cs, 2 * cs.length + 2 ≤ fuel → Enough cs (scanItems rt path fuel depth cs) := by
  induction fuel with
  | zero => exact ⟨fun _ _ h => by omega, fun _ _ h => by omega, fun _ _ h => by omega⟩
  | succ fuel ih =>
    obtain ⟨ihValue, ihFields, ihItems⟩ := ih
    refine ⟨fun depth cs h => ?_, fun depth cs h => ?_, fun depth cs h => ?_⟩
    · -- a value
      unfold scanValue
      cases cs with
      | nil => exact enough_error rfl
      | cons c rest =>
        simp only [List.length_cons] at h
        have hskip := skipSpace_length rest
        simp only
        split
        · split
          · exact enough_error rfl
          · next s rest' hs =>
            have hlt := scanString_length hs
            exact enough_ok (by simp only [List.length_cons]; omega)
        split
        · split
          · exact enough_error rfl
          split
          · next rest' hrest =>
            rw [hrest, List.length_cons] at hskip
            exact enough_ok (by simp only [List.length_cons]; omega)
          · refine (ihFields _ _ (by omega)).bind (fun pairs rest' hlt => ?_)
            refine enough_pure (uniqueObject_fails rt path pairs) (fun v => enough_ok ?_)
            simp only [List.length_cons]
            omega
        split
        · split
          · exact enough_error rfl
          split
          · next rest' hrest =>
            rw [hrest, List.length_cons] at hskip
            exact enough_ok (by simp only [List.length_cons]; omega)
          · refine (ihItems _ _ (by omega)).bind (fun items rest' hlt => enough_ok ?_)
            simp only [List.length_cons]
            omega
        · exact scanAtom_enough rt path (c :: rest)
    · -- the pairs of an object
      unfold scanFields
      split
      · next rest =>
        simp only [List.length_cons] at h
        split
        · exact enough_error rfl
        · next key rest₁ hs =>
          have hlt := scanString_length hs
          have hskip := skipSpace_length rest₁
          split
          · next rest₂ hcolon =>
            rw [hcolon, List.length_cons] at hskip
            have hskip₂ := skipSpace_length rest₂
            refine (ihValue _ _ (by omega)).bind (fun v rest₃ hlt₃ => ?_)
            have hskip₃ := skipSpace_length rest₃
            simp only
            split
            · next rest₄ hclose =>
              rw [hclose, List.length_cons] at hskip₃
              exact enough_ok (by simp only [List.length_cons]; omega)
            · next rest₄ hcomma =>
              rw [hcomma, List.length_cons] at hskip₃
              have hskip₄ := skipSpace_length rest₄
              refine (ihFields _ _ (by omega)).bind (fun pairs rest₅ hlt₅ => enough_ok ?_)
              simp only [List.length_cons]
              omega
            · exact enough_error rfl
          · exact enough_error rfl
      · exact enough_error rfl
    · -- the items of an array
      unfold scanItems
      refine (ihValue _ _ (by omega)).bind (fun v rest hlt => ?_)
      have hskip := skipSpace_length rest
      simp only
      split
      · next rest₁ hclose =>
        rw [hclose, List.length_cons] at hskip
        exact enough_ok (by omega)
      · next rest₁ hcomma =>
        rw [hcomma, List.length_cons] at hskip
        have hskip₁ := skipSpace_length rest₁
        refine (ihItems _ _ (by omega)).bind (fun items rest₂ hlt₂ => enough_ok ?_)
        show rest₂.length < cs.length
        omega
      · exact enough_error rfl

/-- **`loads` is total**: it decodes, or it fails as Python does. -/
theorem loads_fails (payload : List UInt8) :
    ∀ e, loads rt path payload = .error e → e.expected = true := by
  intro e h
  unfold loads at h
  cases htext : decodeText payload with
  | none =>
    rw [htext] at h
    cases h
    rfl
  | some text =>
    rw [htext] at h
    have henough := (scan_enough rt path (2 * (skipSpace text).length + 1)).1 rt.scanDepth
      (skipSpace text) (Nat.le_refl _)
    simp only at h
    cases hv : scanValue rt path (2 * (skipSpace text).length + 1) rt.scanDepth (skipSpace text) with
    | error e' =>
      rw [hv] at h
      cases h
      exact henough.fails _ hv
    | ok p =>
      rw [hv] at h
      change (if _ then _ else _) = _ at h
      split at h
      · cases h
      · cases h
        rfl

/-! ## §5. How an object begins. -/

/-- Only a brace opens an object. -/
theorem scanValue_object {fuel depth : Nat} {cs rest : PyStr} {fields : List (PyStr × Json)}
    (h : scanValue rt path fuel depth cs = .ok (.dict fields, rest)) : cs.head? = some 123 := by
  cases fuel with
  | zero => cases h
  | succ fuel =>
    unfold scanValue at h
    cases cs with
    | nil => cases h
    | cons c cs =>
      by_cases hc : c = 123
      · rw [hc]
        rfl
      · exfalso
        simp only [if_neg hc] at h
        split at h
        · split at h
          · cases h
          · cases h
        split at h
        · split at h
          · cases h
          split at h
          · cases h
          · obtain ⟨_, _, h⟩ := ok_of_bind h
            cases h
        · exact scanAtom_ne_dict rt path h

/-- The text of an object begins with whitespace or a brace. -/
theorem loads_text_head {payload : List UInt8} {fields : List (PyStr × Json)}
    (h : loads rt path payload = .ok (.dict fields)) :
    ∃ text c, decodeText payload = some text ∧ text.head? = some c ∧
      (c = 123 ∨ isJsonSpace c = true) := by
  unfold loads at h
  cases htext : decodeText payload with
  | none =>
    rw [htext] at h
    cases h
  | some text =>
    rw [htext] at h
    obtain ⟨⟨v, rest⟩, hv, h⟩ := ok_of_bind h
    simp only at h
    split at h
    · cases h
      have hhead := scanValue_object rt path hv
      refine ⟨text, ?_⟩
      cases text with
      | nil => cases hhead
      | cons c text =>
        refine ⟨c, rfl, rfl, ?_⟩
        unfold skipSpace at hhead
        by_cases hc : isJsonSpace c = true
        · exact .inr hc
        · rw [List.dropWhile_cons_of_neg hc] at hhead
          exact .inl (Option.some.inj hhead)
    · cases h

end Scan

theorem joinPairs_head {u : Nat} (us : List Nat) (h : isHighSurrogate u = false) :
    (joinPairs (u :: us)).head? = some u := by
  cases us with
  | nil => rfl
  | cons v us =>
    unfold joinPairs
    rw [h, Bool.false_and]
    rfl

/-- In every encoding, bytes that begin with an ASCII character other than NUL
begin with that character. -/
theorem decodeText_head {b : UInt8} {bytes : List UInt8} {text : PyStr} (hpos : b.toNat ≠ 0)
    (hascii : b.toNat < 128) (h : decodeText (b :: bytes) = some text) :
    text.head? = some b.toNat := by
  unfold decodeText at h
  simp only [List.map_cons] at h
  generalize b.toNat = c at *
  generalize bytes.map UInt8.toNat = bs at *
  have hutf8 : ∀ {t : PyStr}, decodeUtf8 (c :: bs) = some t → t.head? = some c := by
    intro t ht
    unfold decodeUtf8 at ht
    rw [if_pos (by omega)] at ht
    obtain ⟨t', _, rfl⟩ := Option.map_eq_some_iff.mp ht
    rfl
  have hutf16 : ∀ {t : PyStr} {bs' : List Nat}, bs = 0 :: bs' →
      (units16 false (c :: bs)).map joinPairs = some t → t.head? = some c := by
    intro t bs' hbs ht
    rw [hbs] at ht
    unfold units16 at ht
    obtain ⟨units, hunits, rfl⟩ := Option.map_eq_some_iff.mp ht
    obtain ⟨us, _, rfl⟩ := Option.map_eq_some_iff.mp hunits
    rw [if_neg (by decide), Nat.zero_mul, Nat.zero_add]
    exact joinPairs_head us (by simp [isHighSurrogate]; omega)
  have hutf32 : ∀ {t : PyStr} {bs' : List Nat}, bs = 0 :: 0 :: 0 :: bs' →
      units32 false (c :: bs) = some t → t.head? = some c := by
    intro t bs' hbs ht
    rw [hbs] at ht
    unfold units32 at ht
    simp only [Bool.false_eq_true, if_false, Nat.zero_mul, Nat.zero_add] at ht
    rw [if_pos (by omega)] at ht
    obtain ⟨us, _, rfl⟩ := Option.map_eq_some_iff.mp ht
    rfl
  have hmark : ∀ mark : List Nat, mark.head? ≠ some c → mark ≠ [] →
      mark.isPrefixOf (c :: bs) = false := by
    intro mark hne hnil
    cases mark with
    | nil => exact absurd rfl hnil
    | cons m mark =>
      have hm : (m == c) = false := by
        refine beq_eq_false_iff_ne.mpr (fun he => hne ?_)
        rw [he]
        rfl
      rw [List.isPrefixOf_cons_cons, hm, Bool.false_and]
  unfold detectEncoding at h
  rw [hmark [0x00, 0x00, 0xFE, 0xFF] (by simp; omega) (by simp),
    hmark [0xFF, 0xFE, 0x00, 0x00] (by simp; omega) (by simp),
    hmark [0xFE, 0xFF] (by simp; omega) (by simp),
    hmark [0xFF, 0xFE] (by simp; omega) (by simp),
    hmark [0xEF, 0xBB, 0xBF] (by simp; omega) (by simp)] at h
  simp only [Bool.or_self, Bool.false_eq_true, if_false] at h
  rcases bs with _ | ⟨b₁, _ | ⟨b₂, _ | ⟨b₃, bs⟩⟩⟩
  · exact hutf8 h
  · simp only [if_neg hpos] at h
    by_cases h₁ : b₁ = 0
    · rw [if_pos h₁] at h
      exact hutf16 (by rw [h₁]) h
    · rw [if_neg h₁] at h
      exact hutf8 h
  · exact hutf8 h
  · simp only [if_neg hpos] at h
    by_cases h₁ : b₁ = 0
    · rw [if_pos h₁] at h
      by_cases h₂ : b₂ = 0 ∧ b₃ = 0
      · rw [if_pos h₂] at h
        exact hutf32 (by rw [h₁, h₂.1, h₂.2]) h
      · rw [if_neg h₂] at h
        exact hutf16 (by rw [h₁]) h
    · rw [if_neg h₁] at h
      exact hutf8 h

/-- **Bytes that begin with an ASCII character other than whitespace or a brace
are no object.** -/
theorem loads_object_head (rt : Interpreter) (path : PyStr) {b : UInt8} {bytes : List UInt8}
    {fields : List (PyStr × Json)} (hpos : b.toNat ≠ 0) (hascii : b.toNat < 128)
    (h : loads rt path (b :: bytes) = .ok (.dict fields)) :
    b.toNat = 123 ∨ isJsonSpace b.toNat = true := by
  obtain ⟨text, c, htext, hhead, hc⟩ := loads_text_head rt path h
  rw [decodeText_head hpos hascii htext] at hhead
  rw [Option.some.inj hhead]
  exact hc

end Lyte
