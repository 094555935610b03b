import Lyte.Domain.Canonical

/-
  Lyte.Domain.AsciiJson — canonical text with `ensure_ascii=True`.

  Evaluations, build receipts and snapshots are digested over ASCII text: the
  layout is the one of `canonicalJson`, but every character outside of the
  printable ASCII range is an escape, two for a character beyond U+FFFF.
-/

namespace Lyte

/-- `%04x`. -/
def hex4 (n : Nat) : PyStr :=
  [hexDigit (n / 4096 % 16), hexDigit (n / 256 % 16), hexDigit (n / 16 % 16), hexDigit (n % 16)]

/-- One character of a JSON string literal, `ensure_ascii=True`. -/
def escapeAscii (c : Nat) : PyStr :=
  if c = 34 then [92, 34]
  else if c = 92 then [92, 92]
  else if c = 10 then [92, 110]
  else if c = 13 then [92, 114]
  else if c = 9 then [92, 116]
  else if c = 12 then [92, 102]
  else if c = 8 then [92, 98]
  else if 32 ≤ c ∧ c ≤ 126 then [c]
  else if c < 65536 then [92, 117] ++ hex4 c
  else
    let v := c - 65536
    [92, 117] ++ hex4 (0xD800 + v / 1024 % 1024) ++ [92, 117] ++ hex4 (0xDC00 + v % 1024)

def quoteAscii (s : PyStr) : PyStr := [34] ++ s.flatMap escapeAscii ++ [34]

variable (rt : Runtime) (quoted : PyStr → PyStr)

mutual
/-- The text of a value, with string literals written by `quoted`. -/
def Json.renderWith : Json → PyStr
  | .null => py "null"
  | .bool true => py "true"
  | .bool false => py "false"
  | .int n => decimalInt n
  | .float f => rt.floatRepr f
  | .str s => quoted s
  | .list xs => [91] ++ joinComma (renderItemsWith xs) ++ [93]
  | .dict fs =>
      [123] ++ joinComma
        ((sortFields (renderFieldsWith fs)).map (fun f => quoted f.1 ++ [58] ++ f.2)) ++ [125]

def Json.renderItemsWith : List Json → List PyStr
  | [] => []
  | x :: xs => x.renderWith :: Json.renderItemsWith xs

def Json.renderFieldsWith : List (PyStr × Json) → List (PyStr × PyStr)
  | [] => []
  | (k, v) :: fs => (k, v.renderWith) :: Json.renderFieldsWith fs
end

/-- `json.dumps(value, sort_keys=True, separators=(",", ":"), allow_nan=False)`. -/
def asciiJson (v : Json) : Except Exn PyStr :=
  if v.encodable then .ok (v.renderWith rt quoteAscii)
  else .error (.valueError (py "Out of range float values are not JSON compliant"))

/-- The SHA-256 of that text. -/
def asciiDigest (v : Json) : Except Exn PyStr := do
  let text ← asciiJson rt v
  sha256Text rt text

mutual
/-- `canonicalJson` has the same layout. -/
theorem render_eq_renderWith (v : Json) : v.render rt = v.renderWith rt quote := by
  cases v with
  | null => rfl
  | bool b => cases b <;> rfl
  | int n => rfl
  | float f => rfl
  | str s => rfl
  | list xs =>
    unfold Json.render Json.renderWith
    rw [renderItems_eq_renderItemsWith xs]
  | dict fs =>
    unfold Json.render Json.renderWith
    rw [renderFields_eq_renderFieldsWith fs]

theorem renderItems_eq_renderItemsWith (xs : List Json) :
    Json.renderItems rt xs = Json.renderItemsWith rt quote xs := by
  cases xs with
  | nil => rfl
  | cons x xs =>
    unfold Json.renderItems Json.renderItemsWith
    rw [render_eq_renderWith x, renderItems_eq_renderItemsWith xs]

theorem renderFields_eq_renderFieldsWith (fs : List (PyStr × Json)) :
    Json.renderFields rt fs = Json.renderFieldsWith rt quote fs := by
  cases fs with
  | nil => rfl
  | cons f fs =>
    unfold Json.renderFields Json.renderFieldsWith
    rw [render_eq_renderWith f.2, renderFields_eq_renderFieldsWith fs]
end

end Lyte
