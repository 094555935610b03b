/-
  Lyte.Domain.Text — Python strings.

  A Python `str` is a sequence of code points and, unlike a Lean `String`, may
  hold lone surrogates (U+D800 … U+DFFF): JSON text brings them in as
  `"\ud800"`, and `str.encode("utf-8")` refuses them.  Strings are therefore
  lists of code points, and `py "…"` writes a literal.
-/

namespace Lyte

/-- A Python `str`: its code points. -/
abbrev PyStr := List Nat

/-- A string literal of the source. -/
def py (s : String) : PyStr := s.toList.map Char.toNat

@[simp] theorem py_inj (a b : String) : py a = py b ↔ a = b := by
  constructor
  · intro h
    have hl : a.toList = b.toList :=
      List.map_inj_right (fun x y => Char.toNat_inj.mp) |>.mp h
    exact String.toList_inj.mp hl
  · rintro rfl; rfl

theorem py_beq (a b : String) : (py a == py b) = decide (a = b) := by
  rw [Bool.eq_iff_iff, beq_iff_eq, py_inj, decide_eq_true_eq]

/-! ## §1. Encoding. -/

/-- A code point that no UTF-8 text contains. -/
def isSurrogate (c : Nat) : Bool := 0xD800 ≤ c && c ≤ 0xDFFF

/-- The UTF-8 bytes of one code point. -/
def utf8Bytes (c : Nat) : List UInt8 :=
  if c < 0x80 then [c.toUInt8]
  else if c < 0x800 then [(0xC0 + c / 64).toUInt8, (0x80 + c % 64).toUInt8]
  else if c < 0x10000 then
    [(0xE0 + c / 4096).toUInt8, (0x80 + c / 64 % 64).toUInt8, (0x80 + c % 64).toUInt8]
  else
    [(0xF0 + c / 262144).toUInt8, (0x80 + c / 4096 % 64).toUInt8,
      (0x80 + c / 64 % 64).toUInt8, (0x80 + c % 64).toUInt8]

/-- `str.encode("utf-8")`; `none` where it raises UnicodeEncodeError. -/
def utf8Encode (s : PyStr) : Option (List UInt8) :=
  if s.any isSurrogate then none else some (s.flatMap utf8Bytes)

/-! ## §2. Whitespace. -/

/-- The code points `str.isspace` and `str.strip` treat as whitespace. -/
def isSpaceChar (c : Nat) : Bool :=
  (0x09 ≤ c && c ≤ 0x0D) || (0x1C ≤ c && c ≤ 0x20) || c == 0x85 || c == 0xA0 || c == 0x1680 ||
    (0x2000 ≤ c && c ≤ 0x200A) || c == 0x2028 || c == 0x2029 || c == 0x202F || c == 0x205F ||
    c == 0x3000

/-- `str.isspace()`. -/
def isSpace (s : PyStr) : Bool := !s.isEmpty && s.all isSpaceChar

/-- `str.strip()`. -/
def strip (s : PyStr) : PyStr :=
  ((s.dropWhile isSpaceChar).reverse.dropWhile isSpaceChar).reverse

/-- `str.split()`, with the word read so far as accumulator. -/
def splitWords : PyStr → PyStr → List PyStr
  | [], word => if word.isEmpty then [] else [word.reverse]
  | c :: cs, word =>
      if isSpaceChar c then
        (if word.isEmpty then splitWords cs [] else word.reverse :: splitWords cs [])
      else splitWords cs (c :: word)

/-- `" ".join(s.split())`. -/
def squeeze (s : PyStr) : PyStr := (py " ").intercalate (splitWords s [])

/-- `dict.fromkeys(items)`: the items without repetitions, in order. -/
def fromkeys : List PyStr → List PyStr
  | [] => []
  | x :: xs => x :: (fromkeys xs).filter (· ≠ x)

/-- `tuple(dict.fromkeys(item.strip() for item in items if item.strip()))`. -/
def cleanRefs (items : List PyStr) : List PyStr :=
  fromkeys ((items.map strip).filter (fun s => !s.isEmpty))

/-! ## §3. Character classes and digests as text. -/

def isAscii (s : PyStr) : Bool := s.all (· < 128)
def isUpper (c : Nat) : Bool := 65 ≤ c && c ≤ 90
def isLower (c : Nat) : Bool := 97 ≤ c && c ≤ 122
def isDigit (c : Nat) : Bool := 48 ≤ c && c ≤ 57
def isAlnum (c : Nat) : Bool := isUpper c || isLower c || isDigit c
def asciiLower (c : Nat) : Nat := if isUpper c then c + 32 else c

def isLowerHex (c : Nat) : Bool := (48 ≤ c && c ≤ 57) || (97 ≤ c && c ≤ 102)

/-- The test the source makes of a digest argument: 64 characters out of
`0123456789abcdef`. -/
def isSha256Hex (s : PyStr) : Bool := s.length == 64 && s.all isLowerHex

/-- Decimal digits, as `str(n)` writes them. -/
def decimal (n : Nat) : PyStr := (Nat.toDigits 10 n).map Char.toNat

def decimalInt : Int → PyStr
  | .ofNat n => decimal n
  | .negSucc n => py "-" ++ decimal (n + 1)

end Lyte
