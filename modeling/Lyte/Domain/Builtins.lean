import Lyte.Domain.RoundTrip

/-
  Lyte.Domain.Builtins — built-in functions on JSON values.

  `bool(value)` and `str(value)`; what `str` writes for a list or a dict, and how
  the case of a string is changed, are fields of `Builtins`.
-/

namespace Lyte

/-- Built-in functions of the interpreter. -/
structure Builtins extends Runtime where
  /-- `str(value)` of a list or a dict. -/
  reprOf : Json → Except Exn PyStr
  /-- `str.upper`. -/
  upper : PyStr → PyStr
  /-- `str.lower`. -/
  lower : PyStr → PyStr

/-- `bool(value)`. -/
def Json.truthy : Json → Bool
  | .null => false
  | .bool b => b
  | .int n => n != 0
  | .float f => decide (f.num ≠ .fin 0)
  | .str s => !s.isEmpty
  | .list items => !items.isEmpty
  | .dict fields => !fields.isEmpty

variable (rt : Builtins)

/-- `str(value)`. -/
def Builtins.text : Json → Except Exn PyStr
  | .null => .ok (py "None")
  | .bool b => .ok (if b then py "True" else py "False")
  | .int n =>
      if 4300 < (decimal n.natAbs).length then
        .error (.valueError (py "Exceeds the limit for integer string conversion"))
      else .ok (decimalInt n)
  | .float f => .ok (rt.floatRepr f)
  | .str s => .ok s
  | value => rt.reprOf value

/-- `str(raw.get(key, absent))`. -/
def Builtins.textOf (raw : List (PyStr × Json)) (key absent : PyStr) : Except Exn PyStr :=
  rt.text ((Json.lookup raw key).getD (.str absent))

end Lyte
