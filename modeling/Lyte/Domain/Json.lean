import Mathlib.Algebra.Ring.Nat
import Mathlib.Algebra.Ring.Int.Defs
import Lyte.Domain.Text

/-
  Lyte.Domain.Json — string-keyed JSON values and Python's `==` on them.

  A value is what `json.loads` can return: None, bool, int (unbounded), float
  (a binary64, kept as its bits), str, list and dict.  Two values that a JSON
  column returns are compared by the source with `==` and `!=`, which is not
  equality of the trees: dicts compare without regard to order, and
  `True == 1 == 1.0`.  `pyEq` is that relation.
-/

namespace Lyte

/-! ## §1. Numbers. -/

/-- A Python `float`. -/
structure PyFloat where
  bits : BitVec 64
deriving DecidableEq

/-- What a number compares as. -/
inductive Num where
  | fin (q : Rat)
  | inf (negative : Bool)
  | nan
deriving DecidableEq

namespace PyFloat

def negative (f : PyFloat) : Bool := f.bits.msb
def exponent (f : PyFloat) : Nat := f.bits.toNat / 2 ^ 52 % 2 ^ 11
def mantissa (f : PyFloat) : Nat := f.bits.toNat % 2 ^ 52

/-- The magnitude of a finite binary64: `mantissa · 2^(exponent - 1075)`. -/
def magnitude (f : PyFloat) : Rat :=
  let m := if f.exponent = 0 then f.mantissa else f.mantissa + 2 ^ 52
  let e := max f.exponent 1
  if 1075 ≤ e then mkRat (m * 2 ^ (e - 1075)) 1 else mkRat m (2 ^ (1075 - e))

def num (f : PyFloat) : Num :=
  if f.exponent = 2047 then
    (if f.mantissa = 0 then .inf f.negative else .nan)
  else .fin (if f.negative then -f.magnitude else f.magnitude)

/-- `math.isfinite(f)`. -/
def isFinite (f : PyFloat) : Bool := f.exponent != 2047

/-- `int(f)` of a finite float: towards zero. -/
def trunc (f : PyFloat) : Int :=
  if f.negative then -f.magnitude.floor else f.magnitude.floor

theorem num_ne_nan {f : PyFloat} (h : f.isFinite = true) : f.num ≠ .nan := by
  have he : f.exponent ≠ 2047 := by simpa [isFinite] using h
  simp [num, he]

end PyFloat

/-- `==` on numbers: NaN is equal to nothing. -/
def Num.pyEq : Num → Num → Bool
  | .nan, _ => false
  | a, b => decide (a = b)

theorem Num.pyEq_refl {a : Num} (h : a ≠ .nan) : a.pyEq a = true := by
  cases a with
  | nan => exact absurd rfl h
  | fin q => simp [Num.pyEq]
  | inf b => simp [Num.pyEq]

/-! ## §2. Values. -/

inductive Json where
  | null
  | bool (b : Bool)
  | int (n : Int)
  | float (f : PyFloat)
  | str (s : PyStr)
  | list (items : List Json)
  | dict (fields : List (PyStr × Json))

namespace Json

/-- The number a value counts as in a comparison: `bool` is an `int`. -/
def num? : Json → Option Num
  | .bool b => some (.fin (if b then 1 else 0))
  | .int n => some (.fin n)
  | .float f => some f.num
  | _ => none

def numEq (a b : Json) : Bool :=
  match a.num?, b.num? with
  | some x, some y => x.pyEq y
  | _, _ => false

mutual
/-- Python's `a == b`. -/
def pyEq : Json → Json → Bool
  | .null, b => match b with
      | .null => true
      | _ => false
  | .str s, b => match b with
      | .str t => s == t
      | _ => false
  | .list xs, b => match b with
      | .list ys => pyEqItems xs ys
      | _ => false
  | .dict xs, b => match b with
      | .dict ys => xs.length == ys.length && pyEqFields xs ys
      | _ => false
  | .bool x, b => numEq (.bool x) b
  | .int n, b => numEq (.int n) b
  | .float f, b => numEq (.float f) b

def pyEqItems : List Json → List Json → Bool
  | [], ys => ys.isEmpty
  | x :: xs, ys => match ys with
      | [] => false
      | y :: ys => x.pyEq y && pyEqItems xs ys

/-- Every field of the first dict is in the second, with an equal value. -/
def pyEqFields : List (PyStr × Json) → List (PyStr × Json) → Bool
  | [], _ => true
  | (k, v) :: xs, ys =>
      (match ys.lookup k with
        | some w => v.pyEq w
        | none => false) && pyEqFields xs ys
end

mutual
/-- No dict in the value has a key twice; every Python dict is so. -/
def nodupKeys : Json → Bool
  | .list xs => nodupKeysItems xs
  | .dict fs => decide ((fs.map Prod.fst).Nodup) && nodupKeysFields fs
  | _ => true

def nodupKeysItems : List Json → Bool
  | [] => true
  | x :: xs => x.nodupKeys && nodupKeysItems xs

def nodupKeysFields : List (PyStr × Json) → Bool
  | [] => true
  | (_, v) :: fs => v.nodupKeys && nodupKeysFields fs
end

mutual
/-- `json.dumps(…, allow_nan=False)` accepts the numbers in the value: floats
are finite and integers have at most 4300 digits. -/
def encodable : Json → Bool
  | .int n => decide ((decimal n.natAbs).length ≤ 4300)
  | .float f => f.isFinite
  | .list xs => encodableItems xs
  | .dict fs => encodableFields fs
  | _ => true

def encodableItems : List Json → Bool
  | [] => true
  | x :: xs => x.encodable && encodableItems xs

def encodableFields : List (PyStr × Json) → Bool
  | [] => true
  | (_, v) :: fs => v.encodable && encodableFields fs
end

/-- `d.get(key)` on a dict, with `none` for an absent key. -/
def lookup (fields : List (PyStr × Json)) (key : PyStr) : Option Json := List.lookup key fields

/-- `d.get(key)`: an absent key reads as None. -/
def get (fields : List (PyStr × Json)) (key : PyStr) : Json := (lookup fields key).getD .null

/-- A nullable text column or attribute, as JSON. -/
def ofOption : Option PyStr → Json
  | some s => .str s
  | none => .null

def strs (items : List PyStr) : Json := .list (items.map .str)

/-! ## §3. Dict equality. -/

section Equality

attribute [local simp] pyEq pyEqItems pyEqFields nodupKeys nodupKeysItems nodupKeysFields
  encodable encodableItems encodableFields

/-- In a dict, what is listed under a key is what is looked up. -/
theorem lookup_of_mem {α β : Type} [BEq α] [LawfulBEq α] {fields : List (α × β)}
    (hnd : (fields.map Prod.fst).Nodup) {k : α} {v : β} (h : (k, v) ∈ fields) :
    List.lookup k fields = some v := by
  induction fields with
  | nil => cases h
  | cons p fs ih =>
    obtain ⟨k', v'⟩ := p
    simp only [List.map_cons, List.nodup_cons] at hnd
    rcases List.mem_cons.mp h with heq | hmem
    · cases heq
      simp
    · have hne : (k == k') = false := by
        refine beq_eq_false_iff_ne.mpr ?_
        rintro rfl
        exact hnd.1 (List.mem_map.mpr ⟨_, hmem, rfl⟩)
      rw [List.lookup_cons, hne]
      exact ih hnd.2 hmem

theorem pyEqFields_iff (xs ys : List (PyStr × Json)) :
    pyEqFields xs ys = true ↔
      ∀ k v, (k, v) ∈ xs → ∃ w, List.lookup k ys = some w ∧ v.pyEq w = true := by
  induction xs with
  | nil => simp [pyEqFields]
  | cons p xs ih =>
    obtain ⟨k, v⟩ := p
    simp only [pyEqFields, Bool.and_eq_true, ih, List.mem_cons, Prod.mk.injEq]
    constructor
    · rintro ⟨h, hrest⟩ k' v' (⟨rfl, rfl⟩ | hm)
      · cases hl : List.lookup k' ys with
        | none => simp [hl] at h
        | some w => exact ⟨w, rfl, by simpa [hl] using h⟩
      · exact hrest k' v' hm
    · intro h
      obtain ⟨w, hw, hv⟩ := h k v (.inl ⟨rfl, rfl⟩)
      exact ⟨by simp [hw, hv], fun k' v' hm => h k' v' (.inr hm)⟩

theorem pyEq_dict (xs ys : List (PyStr × Json)) :
    (Json.dict xs).pyEq (.dict ys) = true ↔
      xs.length = ys.length ∧
        ∀ k v, (k, v) ∈ xs → ∃ w, List.lookup k ys = some w ∧ v.pyEq w = true := by
  simp [pyEq, pyEqFields_iff]

/-- **`==` is reflexive** on the values a JSON column can hold. -/
theorem pyEq_refl : ∀ {j : Json}, j.nodupKeys = true → j.encodable = true → j.pyEq j = true
  | .null, _, _ => rfl
  | .bool b, _, _ => by simp [pyEq, numEq, num?, Num.pyEq]
  | .int n, _, _ => by simp [pyEq, numEq, num?, Num.pyEq]
  | .float f, _, he => by
      simp only [encodable] at he
      simpa [pyEq, numEq, num?] using Num.pyEq_refl (PyFloat.num_ne_nan he)
  | .str s, _, _ => by simp [pyEq]
  | .list xs, hn, he => by
      simp only [nodupKeys, encodable] at hn he
      simpa [pyEq] using items hn he
  | .dict fs, hn, he => by
      simp only [nodupKeys, encodable, Bool.and_eq_true, decide_eq_true_eq] at hn he
      rw [pyEq_dict]
      refine ⟨rfl, fun k v hm => ⟨v, lookup_of_mem hn.1 hm, ?_⟩⟩
      exact fields hn.2 he k v hm
where
  items : ∀ {xs : List Json}, nodupKeysItems xs = true → encodableItems xs = true →
      pyEqItems xs xs = true
    | [], _, _ => rfl
    | x :: xs, hn, he => by
        simp only [nodupKeysItems, encodableItems, Bool.and_eq_true] at hn he
        simp [pyEqItems, pyEq_refl hn.1 he.1, items hn.2 he.2]
  fields : ∀ {fs : List (PyStr × Json)}, nodupKeysFields fs = true → encodableFields fs = true →
      ∀ k v, (k, v) ∈ fs → v.pyEq v = true
    | [], _, _ => by simp
    | (k, v) :: fs, hn, he => by
        simp only [nodupKeysFields, encodableFields, Bool.and_eq_true] at hn he
        intro k' v' hm
        rcases List.mem_cons.mp hm with heq | hm
        · cases heq
          exact pyEq_refl hn.1 he.1
        · exact fields hn.2 he.2 k' v' hm

@[simp] theorem pyEq_str (s t : PyStr) : (Json.str s).pyEq (.str t) = (s == t) := rfl

@[simp] theorem pyEq_int (m n : Int) : (Json.int m).pyEq (.int n) = decide (m = n) := by
  simp [pyEq, numEq, num?, Num.pyEq]

@[simp] theorem pyEq_ofOption (a b : Option PyStr) :
    (ofOption a).pyEq (ofOption b) = decide (a = b) := by
  cases a <;> cases b <;> simp [ofOption, pyEq, Bool.beq_eq_decide_eq]

theorem pyEqItems_strs (a b : List PyStr) :
    pyEqItems (a.map .str) (b.map .str) = decide (a = b) := by
  induction a generalizing b with
  | nil => cases b <;> simp [pyEqItems]
  | cons x xs ih =>
    cases b with
    | nil => simp [pyEqItems]
    | cons y ys => simp [pyEqItems, ih, Bool.beq_eq_decide_eq]

@[simp] theorem pyEq_strs (a b : List PyStr) : (strs a).pyEq (strs b) = decide (a = b) := by
  simp [strs, pyEq, pyEqItems_strs]

end Equality

end Json

theorem eq_str_of_pyEq {v : Json} {s : PyStr} (h : v.pyEq (.str s) = true) : v = .str s := by
  cases v with
  | str t =>
    rw [Json.pyEq_str, beq_iff_eq] at h
    rw [h]
  | bool b => exact absurd h (by simp [Json.pyEq, Json.numEq, Json.num?])
  | int n => exact absurd h (by simp [Json.pyEq, Json.numEq, Json.num?])
  | float f => exact absurd h (by simp [Json.pyEq, Json.numEq, Json.num?])
  | null => cases h
  | list xs => cases h
  | dict xs => cases h

/-! ## §4. Dicts that carry their well-formedness. -/

/-- A Python dict with string keys: no key occurs twice, at any depth. -/
structure JsonDict where
  fields : List (PyStr × Json)
  nodup : (Json.dict fields).nodupKeys = true

namespace JsonDict

/-- The dict as a value. -/
def json (d : JsonDict) : Json := .dict d.fields

@[simp] theorem json_nodupKeys (d : JsonDict) : d.json.nodupKeys = true := d.nodup

def get (d : JsonDict) (key : PyStr) : Json := Json.get d.fields key

def empty : JsonDict := ⟨[], by decide⟩

end JsonDict

end Lyte
