import Lyte.Domain.Json
import Lyte.Domain.Clock

/-
  Lyte.Domain.Canonical — canonical JSON text and digests.

  `canonicalJson` is `json.dumps(value, sort_keys=True, separators=(",", ":"),
  ensure_ascii=False, allow_nan=False)` and `sha256Json` the SHA-256 of its
  UTF-8 bytes.  Both are partial: non-finite floats and oversized integers are
  refused by the encoder, lone surrogates by `str.encode`.

  SHA-256 itself, the shortest decimal spelling of a float, the Unicode tables
  and `datetime.fromisoformat` are parameters (`Runtime`); no result depends on
  more about them than the fields of the structure say.
-/

namespace Lyte

/-! ## §1. The Python runtime. -/

/-- Library functions of the interpreter that the service calls. -/
structure Runtime where
  /-- `hashlib.sha256(data).hexdigest()`. -/
  sha256 : List UInt8 → PyStr
  /-- `float.__repr__`. -/
  floatRepr : PyFloat → PyStr
  /-- `datetime.fromisoformat`. -/
  fromisoformat : PyStr → Except Exn Stamp
  /-- It inverts `isoformat`. -/
  fromisoformat_isoText : ∀ t : Instant, fromisoformat (isoText t.micros) = .ok t.stamp
  /-- `int(s)` on a string; `none` where it raises ValueError. -/
  intOfStr : PyStr → Option Int
  /-- `unicodedata.normalize("NFKC", s)`. -/
  nfkc : PyStr → PyStr
  nfkc_ascii : ∀ s, isAscii s = true → nfkc s = s
  /-- `str.casefold`. -/
  casefold : PyStr → PyStr
  casefold_ascii : ∀ s, isAscii s = true → casefold s = s.map asciiLower

def hexDigit (n : Nat) : Nat := if n < 10 then 48 + n else 87 + n

/-- A digest of 64 hexadecimal digits that is quick to compute. -/
def polynomialDigest (bytes : List UInt8) : PyStr :=
  let sum := bytes.foldl (fun h b => (h * 1000003 + b.toNat + 1) % 2 ^ 256) 7
  (List.range 64).map (fun i => hexDigit (sum / 16 ^ i % 16))

theorem polynomialDigest_hex (bytes : List UInt8) : isSha256Hex (polynomialDigest bytes) = true := by
  unfold isSha256Hex polynomialDigest
  rw [Bool.and_eq_true, List.all_eq_true]
  constructor
  · rw [List.length_map, List.length_range]
    rfl
  · intro c hc
    obtain ⟨i, _, rfl⟩ := List.mem_map.mp hc
    have hdigit : ∀ d < 16, isLowerHex (hexDigit d) = true := by decide
    exact hdigit _ (Nat.mod_lt _ (by decide))

/-- A runtime for ASCII text and canonical timestamps. -/
def Runtime.ascii : Runtime where
  sha256 := polynomialDigest
  floatRepr _ := py "0.5"
  fromisoformat s :=
    match parseIso s with
    | some micros => .ok ⟨micros, some 0⟩
    | none => .error (.valueError (py "Invalid isoformat string"))
  fromisoformat_isoText t := by rw [parseIso_isoText t.nonneg t.le_max]; rfl
  intOfStr _ := none
  nfkc := id
  nfkc_ascii _ _ := rfl
  casefold := List.map asciiLower
  casefold_ascii _ _ := rfl

/-! ## §2. Canonical text. -/

/-- One character of a JSON string literal, `ensure_ascii=False`. -/
def escapeChar (c : Nat) : PyStr :=
  if c = 34 then [92, 34]
  else if c = 92 then [92, 92]
  else if c = 10 then [92, 110]
  else if c = 13 then [92, 114]
  else if c = 9 then [92, 116]
  else if c = 12 then [92, 102]
  else if c = 8 then [92, 98]
  else if c < 32 then [92, 117, 48, 48, hexDigit (c / 16), hexDigit (c % 16)]
  else [c]

def quote (s : PyStr) : PyStr := [34] ++ s.flatMap escapeChar ++ [34]

/-- `a <= b` on strings: by code points. -/
def strLe : PyStr → PyStr → Bool
  | [], _ => true
  | _ :: _, [] => false
  | a :: as, b :: bs => a < b || (a == b && strLe as bs)

theorem strLe_total (a b : PyStr) : strLe a b = true ∨ strLe b a = true := by
  induction a generalizing b with
  | nil => exact .inl rfl
  | cons x xs ih =>
    cases b with
    | nil => exact .inr rfl
    | cons y ys =>
      simp only [strLe, Bool.or_eq_true, Bool.and_eq_true, decide_eq_true_eq, beq_iff_eq]
      rcases Nat.lt_trichotomy x y with h | h | h
      · exact .inl (.inl h)
      · rcases ih ys with hs | hs
        · exact .inl (.inr ⟨h, hs⟩)
        · exact .inr (.inr ⟨h.symm, hs⟩)
      · exact .inr (.inl h)

theorem strLe_antisymm {a b : PyStr} (h : strLe a b = true) (h' : strLe b a = true) : a = b := by
  induction a generalizing b with
  | nil =>
    cases b with
    | nil => rfl
    | cons y ys => cases h'
  | cons x xs ih =>
    cases b with
    | nil => cases h
    | cons y ys =>
      simp only [strLe, Bool.or_eq_true, Bool.and_eq_true, decide_eq_true_eq, beq_iff_eq] at h h'
      rcases h with h | ⟨rfl, h⟩
      · rcases h' with h' | ⟨rfl, _⟩
        · omega
        · omega
      · rcases h' with h' | ⟨_, h'⟩
        · omega
        · rw [ih h h']

theorem strLe_trans {a b c : PyStr} (h : strLe a b = true) (h' : strLe b c = true) :
    strLe a c = true := by
  induction a generalizing b c with
  | nil => rfl
  | cons x xs ih =>
    cases b with
    | nil => cases h
    | cons y ys =>
      cases c with
      | nil => cases h'
      | cons z zs =>
        simp only [strLe, Bool.or_eq_true, Bool.and_eq_true, decide_eq_true_eq, beq_iff_eq]
          at h h' ⊢
        rcases h with h | ⟨rfl, h⟩
        · rcases h' with h' | ⟨rfl, _⟩
          · exact .inl (by omega)
          · exact .inl h
        · rcases h' with h' | ⟨rfl, h'⟩
          · exact .inl h'
          · exact .inr ⟨rfl, ih h h'⟩

/-- Insert a rendered field into fields sorted by key. -/
def insertField (f : PyStr × PyStr) : List (PyStr × PyStr) → List (PyStr × PyStr)
  | [] => [f]
  | g :: gs => if strLe f.1 g.1 then f :: g :: gs else g :: insertField f gs

/-- `sort_keys=True`. -/
def sortFields : List (PyStr × PyStr) → List (PyStr × PyStr)
  | [] => []
  | f :: fs => insertField f (sortFields fs)

/-- `separators=(",", ":")`. -/
def joinComma : List PyStr → PyStr
  | [] => []
  | [x] => x
  | x :: xs => x ++ [44] ++ joinComma xs

variable (rt : Runtime)

mutual
/-- The text of an encodable value. -/
def Json.render : Json → PyStr
  | .null => py "null"
  | .bool true => py "true"
  | .bool false => py "false"
  | .int n => decimalInt n
  | .float f => rt.floatRepr f
  | .str s => quote s
  | .list xs => [91] ++ joinComma (renderItems xs) ++ [93]
  | .dict fs =>
      [123] ++ joinComma ((sortFields (renderFields fs)).map (fun f => quote f.1 ++ [58] ++ f.2))
        ++ [125]

def Json.renderItems : List Json → List PyStr
  | [] => []
  | x :: xs => x.render :: Json.renderItems xs

def Json.renderFields : List (PyStr × Json) → List (PyStr × PyStr)
  | [] => []
  | (k, v) :: fs => (k, v.render) :: Json.renderFields fs
end

/-- `canonical_json`. -/
def canonicalJson (v : Json) : Except Exn PyStr :=
  if v.encodable then .ok (v.render rt)
  else .error (.valueError (py "Out of range float values are not JSON compliant"))

/-! ## §3. Digests. -/

/-- `sha256_text`. -/
def sha256Text (text : PyStr) : Except Exn PyStr :=
  match utf8Encode text with
  | some bytes => .ok (rt.sha256 bytes)
  | none => .error .unicodeEncodeError

/-- `sha256_json`. -/
def sha256Json (v : Json) : Except Exn PyStr := do
  let text ← canonicalJson rt v
  sha256Text rt text

theorem encodable_of_sha256Json {v : Json} {h : PyStr} (hv : sha256Json rt v = .ok h) :
    v.encodable = true := by
  simp only [sha256Json, canonicalJson] at hv
  split at hv
  · assumption
  · cases hv

/-- A digest was computed, so the value equals itself under `==`. -/
theorem pyEq_self_of_sha256Json {v : Json} {h : PyStr} (hn : v.nodupKeys = true)
    (hv : sha256Json rt v = .ok h) : v.pyEq v = true :=
  Json.pyEq_refl hn (encodable_of_sha256Json rt hv)

end Lyte
