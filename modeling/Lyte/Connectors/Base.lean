import Lyte.Domain.Decode

/-
  Lyte.Connectors.Base — strict JSON and the checks the connectors share.

  `strictJsonLoads` refuses with a PayloadValidationError whatever the decoder
  of `Domain/Decode.lean` refuses, and what a canonical encoder could not write
  back.  The `require…` helpers name the path of the field they refuse.
-/

namespace Lyte

open Transact

/-! ## §1. Identifiers. -/

/-- The characters behind the first of a safe name: `[A-Za-z0-9._:-]`. -/
def isSafeChar (c : Nat) : Bool := isAlnum c || c == 46 || c == 95 || c == 58 || c == 45

/-- `[A-Za-z0-9][A-Za-z0-9._:-]{least,127}`. -/
def isSafeName (least : Nat) (s : PyStr) : Bool :=
  match s with
  | [] => false
  | c :: cs => isAlnum c && cs.all isSafeChar && least ≤ cs.length && cs.length ≤ 127

/-- `_IDEMPOTENCY_KEY`. -/
def isIdempotencyKey (s : PyStr) : Bool := isSafeName 15 s

theorem isSafeChar_ascii {c : Nat} (h : isSafeChar c = true) : c < 128 := by
  simp only [isSafeChar, isAlnum, isUpper, isLower, isDigit, Bool.or_eq_true, Bool.and_eq_true,
    decide_eq_true_eq, beq_iff_eq] at h
  omega

theorem isAlnum_safe {c : Nat} (h : isAlnum c = true) : isSafeChar c = true := by
  simp [isSafeChar, h]

/-- Every character of a safe name is a safe one. -/
theorem isSafeName_chars {least : Nat} {s : PyStr} (h : isSafeName least s = true) :
    ∀ c ∈ s, isSafeChar c = true := by
  unfold isSafeName at h
  cases s with
  | nil => cases h
  | cons c cs =>
    simp only [Bool.and_eq_true] at h
    intro x hx
    rcases List.mem_cons.mp hx with rfl | hx
    · exact isAlnum_safe h.1.1.1
    · exact List.all_eq_true.mp h.1.1.2 x hx

theorem isSafeName_ne_nil {least : Nat} {s : PyStr} (h : isSafeName least s = true) : s ≠ [] := by
  rintro rfl
  cases h

theorem isSafeName_length {least : Nat} {s : PyStr} (h : isSafeName least s = true) :
    s.length ≤ 128 := by
  unfold isSafeName at h
  cases s with
  | nil => cases h
  | cons c cs =>
    simp only [Bool.and_eq_true, decide_eq_true_eq] at h
    rw [List.length_cons]
    omega

/-- `IdempotencyClaim`. -/
structure IdempotencyClaim where
  key : PyStr
  payloadSha256 : PyStr
deriving DecidableEq

/-- `IdempotencyClaim(…)` with its `__post_init__`. -/
def IdempotencyClaim.new (key payloadSha256 : PyStr) : Except Exn IdempotencyClaim :=
  if !isIdempotencyKey key then
    .error (.payloadValidationError (py "idempotency key must contain 16-128 safe characters"))
  else if !isSha256Hex payloadSha256 then
    .error (.payloadValidationError (py "payload_sha256 must be a lowercase SHA-256 digest"))
  else .ok ⟨key, payloadSha256⟩

/-! ## §2. Strict JSON. -/

/-- A RecursionError of the walk, as `strict_json_loads` passes it on. -/
def tooDeep (root : PyStr) : Exn :=
  .payloadValidationError (root ++ py " exceeds the maximum supported nesting")

mutual
/-- `walk` of `assert_finite_json`: the first thing it raises, as the error that
leaves `strict_json_loads`; `depth` are the frames that are left. -/
def walkFinite (root : PyStr) (depth : Nat) : Json → PyStr → Except Exn Unit
  | .float f, path =>
      if depth = 0 then .error (tooDeep root)
      else if f.isFinite then .ok ()
      else .error (.payloadValidationError (path ++ py " must be finite"))
  | .dict fields, path =>
      if depth = 0 then .error (tooDeep root)
      else walkFiniteFields root (depth - 1) fields path
  | .list items, path =>
      if depth = 0 then .error (tooDeep root)
      else walkFiniteItems root (depth - 1) items 0 path
  | _, _ => if depth = 0 then .error (tooDeep root) else .ok ()

def walkFiniteFields (root : PyStr) (depth : Nat) :
    List (PyStr × Json) → PyStr → Except Exn Unit
  | [], _ => .ok ()
  | (k, v) :: fields, path => do
      walkFinite root depth v (path ++ py "." ++ k)
      walkFiniteFields root depth fields path

def walkFiniteItems (root : PyStr) (depth : Nat) : List Json → Nat → PyStr → Except Exn Unit
  | [], _, _ => .ok ()
  | x :: items, i, path => do
      walkFinite root depth x (path ++ py "[" ++ decimal i ++ py "]")
      walkFiniteItems root depth items (i + 1) path
end

section Strict

variable (rt : Interpreter)

/-- `assert_finite_json(value, path=path)`. -/
def assertFiniteJson (value : Json) (path : PyStr) : Except Exn Unit := do
  walkFinite path rt.walkDepth value path
  match canonicalJson rt.toRuntime value with
  | .ok _ => return ()
  | .error _ => throw (.payloadValidationError (path ++ py " is not canonical JSON data"))

/-- `strict_json_loads(payload, max_bytes=maxBytes, path=path)`. -/
def strictJsonLoads (payload : List UInt8) (maxBytes : Nat) (path : PyStr) : Except Exn Json :=
  if maxBytes < payload.length then
    .error (.payloadValidationError (path ++ py " exceeds " ++ decimal maxBytes ++ py " bytes"))
  else if payload.isEmpty then
    .error (.payloadValidationError (path ++ py " cannot be empty"))
  else match loads rt path payload with
    | .error (.hook e) => .error e
    | .error .undecodable => .error (.payloadValidationError (path ++ py " must be UTF-8 JSON"))
    | .error _ => .error (.payloadValidationError (path ++ py " is malformed JSON"))
    | .ok decoded => do
        assertFiniteJson rt decoded path
        return decoded

end Strict

/-- `require_object(value, path=path)`. -/
def requireObject (value : Json) (path : PyStr) : Except Exn (List (PyStr × Json)) :=
  match value with
  | .dict fields => .ok fields
  | _ => .error (.payloadValidationError (path ++ py " must be an object"))

/-- `require_list(value, path=path, maximum=maximum)`. -/
def requireList (value : Json) (path : PyStr) (maximum : Nat) : Except Exn (List Json) :=
  match value with
  | .list items =>
      if maximum < items.length then
        .error (.payloadValidationError
          (path ++ py " exceeds the limit of " ++ decimal maximum))
      else .ok items
  | _ => .error (.payloadValidationError (path ++ py " must be an array"))

/-- `', '.join(sorted(names))`. -/
def joinSorted (names : List PyStr) : PyStr := (py ", ").intercalate (names.mergeSort strLe)

/-- `require_fields(value, path=path, allowed=allowed, required=required)`. -/
def requireFields (value : List (PyStr × Json)) (path : PyStr) (allowed required : List PyStr) :
    Except Exn Unit :=
  let unknown := (value.map Prod.fst).filter (fun k => !allowed.contains k)
  let missing := required.filter (fun k => !(value.map Prod.fst).contains k)
  if !unknown.isEmpty then
    .error (.payloadValidationError
      (path ++ py " contains unsupported field(s): " ++ joinSorted unknown))
  else if !missing.isEmpty then
    .error (.payloadValidationError
      (path ++ py " is missing required field(s): " ++ joinSorted missing))
  else .ok ()

/-! ## §3. They refuse with a PayloadValidationError. -/

/-- A computation that fails with a PayloadValidationError only. -/
abbrev Refuses {α : Type} (x : Except Exn α) : Prop :=
  Raises (fun e => e.isPayloadValidationError = true) x

mutual
theorem walkFinite_refuses (root : PyStr) (depth : Nat) :
    ∀ (v : Json) (path : PyStr), Refuses (walkFinite root depth v path)
  | .null, path => by
      unfold walkFinite
      split
      · exact raises_error rfl
      · exact raises_ok ()
  | .bool b, path => by
      unfold walkFinite
      split
      · exact raises_error rfl
      · exact raises_ok ()
  | .int n, path => by
      unfold walkFinite
      split
      · exact raises_error rfl
      · exact raises_ok ()
  | .str s, path => by
      unfold walkFinite
      split
      · exact raises_error rfl
      · exact raises_ok ()
  | .float f, path => by
      unfold walkFinite
      split
      · exact raises_error rfl
      split
      · exact raises_ok ()
      · exact raises_error rfl
  | .dict fields, path => by
      unfold walkFinite
      split
      · exact raises_error rfl
      · exact walkFiniteFields_refuses root (depth - 1) fields path
  | .list items, path => by
      unfold walkFinite
      split
      · exact raises_error rfl
      · exact walkFiniteItems_refuses root (depth - 1) items 0 path

theorem walkFiniteFields_refuses (root : PyStr) (depth : Nat) :
    ∀ (fields : List (PyStr × Json)) (path : PyStr),
      Refuses (walkFiniteFields root depth fields path)
  | [], path => by
      unfold walkFiniteFields
      exact raises_ok ()
  | (k, v) :: fields, path => by
      unfold walkFiniteFields
      exact (walkFinite_refuses root depth v _).bind
        (fun _ => walkFiniteFields_refuses root depth fields path)

theorem walkFiniteItems_refuses (root : PyStr) (depth : Nat) :
    ∀ (items : List Json) (i : Nat) (path : PyStr),
      Refuses (walkFiniteItems root depth items i path)
  | [], i, path => by
      unfold walkFiniteItems
      exact raises_ok ()
  | x :: items, i, path => by
      unfold walkFiniteItems
      exact (walkFinite_refuses root depth x _).bind
        (fun _ => walkFiniteItems_refuses root depth items (i + 1) path)
end

theorem assertFiniteJson_refuses (rt : Interpreter) (value : Json) (path : PyStr) :
    Refuses (assertFiniteJson rt value path) := by
  unfold assertFiniteJson
  refine (walkFinite_refuses path rt.walkDepth value path).bind (fun _ => ?_)
  split
  · exact raises_ok ()
  · exact raises_error rfl

/-- **Whatever is wrong with a body**, `strict_json_loads` says so with a
PayloadValidationError. -/
theorem strictJsonLoads_refuses (rt : Interpreter) (payload : List UInt8) (maxBytes : Nat)
    (path : PyStr) : Refuses (strictJsonLoads rt payload maxBytes path) := by
  unfold strictJsonLoads
  split
  · exact raises_error rfl
  split
  · exact raises_error rfl
  split
  · next e he =>
    intro e' h
    cases h
    exact loads_fails rt path payload (.hook e) he
  · exact raises_error rfl
  · exact raises_error rfl
  · exact (assertFiniteJson_refuses rt _ path).bind (fun _ => raises_ok _)

theorem requireObject_refuses (value : Json) (path : PyStr) : Refuses (requireObject value path) := by
  unfold requireObject
  split
  · exact raises_ok _
  · exact raises_error rfl

theorem requireList_refuses (value : Json) (path : PyStr) (maximum : Nat) :
    Refuses (requireList value path maximum) := by
  unfold requireList
  split
  · split
    · exact raises_error rfl
    · exact raises_ok _
  · exact raises_error rfl

theorem requireFields_refuses (value : List (PyStr × Json)) (path : PyStr)
    (allowed required : List PyStr) : Refuses (requireFields value path allowed required) := by
  show Refuses (if _ then _ else _)
  split
  · exact raises_error rfl
  · show Refuses (if _ then _ else _)
    split
    · exact raises_error rfl
    · exact raises_ok ()

end Lyte
