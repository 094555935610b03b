import Lyte.Domain.Canonical
import Lyte.Domain.Scope

/-
  Lyte.Domain.Receipts — the credential guard and receipt drafts.

  `isSensitiveKey` looks at the last word, and the last two words run together,
  of a key's normal form: once as it stands, once with camelCase boundaries
  opened up.  `assertNoSensitiveKeys` walks a whole JSON value with it.
-/

namespace Lyte

/-! ## §1. Credential keys. -/

/-- `_SENSITIVE_KEYS`. -/
def sensitiveKeys : List PyStr :=
  [py "apikey", py "accesstoken", py "authtoken", py "authorization", py "bearertoken",
    py "clientsecret", py "cookie", py "credential", py "credentials", py "csrftoken",
    py "idtoken", py "oauthtoken", py "passphrase", py "passwd", py "password",
    py "privatekey", py "proxyauthorization", py "refreshtoken", py "secret",
    py "sessiontoken", py "setcookie", py "token", py "xsrftoken"]

def isWordChar (c : Nat) : Bool := isLower c || isDigit c

/-- `re.findall(r"[a-z0-9]+", s)`, with the word read so far as accumulator. -/
def findWords : PyStr → PyStr → List PyStr
  | [], word => if word.isEmpty then [] else [word.reverse]
  | c :: cs, word =>
      if isWordChar c then findWords cs (c :: word)
      else if word.isEmpty then findWords cs []
      else word.reverse :: findWords cs []

/-- `words and (words[-1] in … or "".join(words[-2:]) in …)`. -/
def endsSensitive (words : List PyStr) : Bool :=
  match words.reverse with
  | [] => false
  | [w] => sensitiveKeys.contains w
  | w :: v :: _ => sensitiveKeys.contains w || sensitiveKeys.contains (v ++ w)

/-- `re.sub(r"([A-Z]+)([A-Z][a-z])", r"\1_\2", s)`: an underscore before the
last capital of a run that a small letter follows. -/
def openAcronyms : PyStr → PyStr
  | a :: b :: c :: rest =>
      if isUpper a && isUpper b && isLower c then a :: 95 :: openAcronyms (b :: c :: rest)
      else a :: openAcronyms (b :: c :: rest)
  | s => s

/-- `re.sub(r"([a-z0-9])([A-Z])", r"\1_\2", s)`. -/
def openCamel : PyStr → PyStr
  | a :: b :: rest =>
      if isWordChar a && isUpper b then a :: 95 :: openCamel (b :: rest)
      else a :: openCamel (b :: rest)
  | s => s

variable (rt : Runtime)

/-- `is_sensitive_key`. -/
def isSensitiveKey (key : PyStr) : Bool :=
  let normalized := strip (rt.nfkc key)
  endsSensitive (findWords (rt.casefold normalized) []) ||
    endsSensitive (findWords (rt.casefold (openCamel (openAcronyms normalized))) [])

mutual
/-- The first sensitive field of a value, as the path the error names. -/
def sensitivePath : Json → PyStr → Option PyStr
  | .dict fs, path => sensitivePathFields fs path
  | .list xs, path => sensitivePathItems xs 0 path
  | _, _ => none

def sensitivePathFields : List (PyStr × Json) → PyStr → Option PyStr
  | [], _ => none
  | (k, v) :: fs, path =>
      if isSensitiveKey rt k then some (path ++ py "." ++ k)
      else match sensitivePath v (path ++ py "." ++ k) with
        | some p => some p
        | none => sensitivePathFields fs path

def sensitivePathItems : List Json → Nat → PyStr → Option PyStr
  | [], _, _ => none
  | x :: xs, i, path =>
      match sensitivePath x (path ++ py "[" ++ decimal i ++ py "]") with
      | some p => some p
      | none => sensitivePathItems xs (i + 1) path
end

/-- `assert_no_sensitive_keys(value, path=path)`. -/
def assertNoSensitiveKeys (value : Json) (path : PyStr) : Except Exn Unit :=
  match sensitivePath rt value path with
  | some p => .error (.valueError (py "sensitive field is forbidden at " ++ p))
  | none => .ok ()

/-! ## §2. Receipt drafts. -/

/-- `_NAME`: `^[a-z][a-z0-9_.:-]{0,127}$`. -/
def isName (s : PyStr) : Bool :=
  match s with
  | [] => false
  | c :: cs => isLower c && cs.length ≤ 127 &&
      cs.all (fun x => isLower x || isDigit x || x == 95 || x == 46 || x == 58 || x == 45)

structure ReceiptDraft where
  kind : PyStr
  subjectType : PyStr
  subjectId : PyStr
  payload : JsonDict
  truthLabel : TruthLabel
  evidenceRefs : List PyStr

/-- The `_NAME` check of one field. -/
def requireName (field value : PyStr) : Except Exn Unit :=
  if isName value then .ok ()
  else .error (.valueError (field ++ py " must match ^[a-z][a-z0-9_.:-]{0,127}$"))

/-- `ReceiptDraft(…)` with its `__post_init__`. -/
def ReceiptDraft.new (kind subjectType subjectId : PyStr) (payload : JsonDict)
    (truthLabel : TruthLabel) (evidenceRefs : List PyStr) : Except Exn ReceiptDraft := do
  requireName (py "kind") kind
  requireName (py "subject_type") subjectType
  let subjectId := strip subjectId
  if subjectId.isEmpty || 256 < subjectId.length then
    throw (.valueError (py "subject_id must contain 1-256 characters"))
  assertNoSensitiveKeys rt payload.json (py "payload")
  let _ ← canonicalJson rt payload.json
  return ⟨kind, subjectType, subjectId, payload, truthLabel, cleanRefs evidenceRefs⟩

/-! ## §3. Drafts that are admitted. -/

/-- A key in ASCII that is no credential, in whatever case it is read. -/
def isPlainKey (key : PyStr) : Bool :=
  isAscii key && strip key == key && openCamel (openAcronyms key) == key &&
    !endsSensitive (findWords (key.map asciiLower) [])

/-- A value without parts or numbers. -/
def isPlainValue : Json → Bool
  | .null | .bool _ | .str _ => true
  | _ => false

theorem isSensitiveKey_plain {key : PyStr} (h : isPlainKey key = true) :
    isSensitiveKey rt key = false := by
  simp only [isPlainKey, Bool.and_eq_true, beq_iff_eq, Bool.not_eq_true'] at h
  obtain ⟨⟨⟨hascii, hstrip⟩, hopen⟩, hwords⟩ := h
  simp only [isSensitiveKey, rt.nfkc_ascii key hascii, hstrip, hopen,
    rt.casefold_ascii key hascii, hwords, Bool.or_self]

theorem sensitivePathFields_plain {fields : List (PyStr × Json)}
    (hkeys : (fields.map Prod.fst).all isPlainKey = true)
    (hvalues : (fields.map Prod.snd).all isPlainValue = true) (path : PyStr) :
    sensitivePathFields rt fields path = none := by
  induction fields with
  | nil => rfl
  | cons f fields ih =>
    obtain ⟨k, v⟩ := f
    simp only [List.map_cons, List.all_cons, Bool.and_eq_true] at hkeys hvalues
    have hv : ∀ path, sensitivePath rt v path = none := by
      intro path
      cases v with
      | null | bool _ | str _ => rfl
      | int _ | float _ | list _ | dict _ => cases hvalues.1
    unfold sensitivePathFields
    rw [if_neg (by rw [isSensitiveKey_plain rt hkeys.1]; exact Bool.false_ne_true), hv]
    exact ih hkeys.2 hvalues.2

theorem encodableFields_plain {fields : List (PyStr × Json)}
    (hvalues : (fields.map Prod.snd).all isPlainValue = true) :
    Json.encodableFields fields = true := by
  induction fields with
  | nil => rfl
  | cons f fields ih =>
    obtain ⟨k, v⟩ := f
    simp only [List.map_cons, List.all_cons, Bool.and_eq_true] at hvalues
    unfold Json.encodableFields
    rw [ih hvalues.2, Bool.and_true]
    cases v with
    | null | bool _ | str _ => rfl
    | int _ | float _ | list _ | dict _ => cases hvalues.1

theorem strip_of_forall {s : PyStr} (h : ∀ c ∈ s, isSpaceChar c = false) : strip s = s := by
  have hdrop : ∀ {t : PyStr}, (∀ c ∈ t, isSpaceChar c = false) → t.dropWhile isSpaceChar = t := by
    intro t ht
    cases t with
    | nil => rfl
    | cons c t =>
      rw [List.dropWhile_cons_of_neg (by rw [ht c List.mem_cons_self]; exact Bool.false_ne_true)]
  unfold strip
  rw [hdrop h, hdrop (fun c hc => h c (List.mem_reverse.mp hc)), List.reverse_reverse]

/-- **A draft of plain fields is admitted** if its names are. -/
theorem ReceiptDraft.new_plain {kind subjectType subjectId : PyStr} {payload : JsonDict}
    (truthLabel : TruthLabel) (evidenceRefs : List PyStr) (hkind : isName kind = true)
    (htype : isName subjectType = true) (hsubject : strip subjectId = subjectId)
    (hne : subjectId ≠ []) (hlen : subjectId.length ≤ 256)
    (hkeys : (payload.fields.map Prod.fst).all isPlainKey = true)
    (hvalues : (payload.fields.map Prod.snd).all isPlainValue = true) :
    ReceiptDraft.new rt kind subjectType subjectId payload truthLabel evidenceRefs =
      .ok ⟨kind, subjectType, subjectId, payload, truthLabel, cleanRefs evidenceRefs⟩ := by
  have hguard : assertNoSensitiveKeys rt payload.json (py "payload") = .ok () := by
    unfold assertNoSensitiveKeys JsonDict.json sensitivePath
    rw [sensitivePathFields_plain rt hkeys hvalues]
  have hjson : canonicalJson rt payload.json = .ok (payload.json.render rt) := by
    unfold canonicalJson JsonDict.json Json.encodable
    rw [if_pos (encodableFields_plain hvalues)]
  have hempty : subjectId.isEmpty = false := by
    cases subjectId with
    | nil => exact absurd rfl hne
    | cons c cs => rfl
  have hshort : decide (256 < subjectId.length) = false := decide_eq_false (Nat.not_lt.mpr hlen)
  unfold ReceiptDraft.new requireName
  rw [hkind, htype]
  simp only [hsubject, hempty, hshort, hguard, hjson, if_true, Bool.or_self, Bool.false_eq_true,
    if_false, bind, Except.bind, pure, Except.pure]

end Lyte
