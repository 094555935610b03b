import Lyte.Connectors.Base
import Lyte.Domain.Dicts
import Lyte.Domain.Operational
import Lyte.Domain.Receipts

/-
  Lyte.Connectors.Attributes — attributes without credentials.

  `strip_sensitive_attributes` removes from a dict what the guard of receipts and
  operational records would refuse it for.  The two are written apart, one as a
  walk that rebuilds the dict and one as a search for a path; here they agree:

      sensitivePath_none_iff   the guard passes values of plain keys alone,
      stripped_passes          it passes whatever has been stripped,
      stripped_nil_iff         and nothing is stripped, or reported, where it
                               passes already;
      strip_agrees             all of it.

  `Storable` values are those that drafts of receipts and of operational records
  are admitted with (`new_storable`).
-/

namespace Lyte

/-- A key that names no credential. -/
def isOpenKey (rt : Runtime) (key : PyStr) : Bool := !isSensitiveKey rt key

section Strip

variable (rt : Runtime)

mutual
/-- `clean_value`: what is left of a value, and the paths of what was removed. -/
def cleanValue : Json → PyStr → Json × List PyStr
  | .dict fields, path => ((.dict (cleanMapping fields path).1), (cleanMapping fields path).2)
  | .list items, path => ((.list (cleanItems items 0 path).1), (cleanItems items 0 path).2)
  | value, _ => (value, [])

/-- `clean_mapping`; no key comes twice, so that every field that is kept is a new one. -/
def cleanMapping : List (PyStr × Json) → PyStr → List (PyStr × Json) × List PyStr
  | [], _ => ([], [])
  | (key, nested) :: fields, path =>
      let keyPath := if path.isEmpty then key else path ++ py "." ++ key
      let rest := cleanMapping fields path
      if isSensitiveKey rt key then (rest.1, keyPath :: rest.2)
      else
        let clean := cleanValue nested keyPath
        ((key, clean.1) :: rest.1, clean.2 ++ rest.2)

def cleanItems : List Json → Nat → PyStr → List Json × List PyStr
  | [], _, _ => ([], [])
  | item :: items, index, path =>
      let clean := cleanValue item (path ++ py "[" ++ decimal index ++ py "]")
      let rest := cleanItems items (index + 1) path
      (clean.1 :: rest.1, clean.2 ++ rest.2)
end

/-! ## §1. What is left. -/

mutual
/-- The walk rebuilds the value without its credentials. -/
theorem cleanValue_fst :
    ∀ (v : Json) (path : PyStr), (cleanValue rt v path).1 = v.scrub (isOpenKey rt)
  | .null, _ => rfl
  | .bool _, _ => rfl
  | .int _, _ => rfl
  | .float _, _ => rfl
  | .str _, _ => rfl
  | .list xs, path => by
      rw [cleanValue, Json.scrub]
      show Json.list (cleanItems rt xs 0 path).1 = _
      rw [cleanItems_fst xs 0 path]
  | .dict fs, path => by
      rw [cleanValue, Json.scrub]
      show Json.dict (cleanMapping rt fs path).1 = _
      rw [cleanMapping_fst fs path]

theorem cleanMapping_fst : ∀ (fs : List (PyStr × Json)) (path : PyStr),
    (cleanMapping rt fs path).1 = Json.scrubFields (isOpenKey rt) fs
  | [], _ => rfl
  | (k, v) :: fs, path => by
      rw [cleanMapping, Json.scrubFields]
      by_cases hk : isSensitiveKey rt k = true
      · have hopen : ¬ isOpenKey rt k = true := by simp [isOpenKey, hk]
        rw [if_neg hopen]
        simp only [if_pos hk]
        exact cleanMapping_fst fs path
      · have hopen : isOpenKey rt k = true := by simp [isOpenKey, hk]
        rw [if_pos hopen]
        simp only [if_neg hk]
        rw [cleanMapping_fst fs path, cleanValue_fst v]

theorem cleanItems_fst : ∀ (xs : List Json) (i : Nat) (path : PyStr),
    (cleanItems rt xs i path).1 = Json.scrubItems (isOpenKey rt) xs
  | [], _, _ => rfl
  | x :: xs, i, path => by
      rw [cleanItems, Json.scrubItems]
      show (cleanValue rt x _).1 :: (cleanItems rt xs (i + 1) path).1 = _
      rw [cleanValue_fst x, cleanItems_fst xs (i + 1) path]
end

mutual
/-- Nothing is reported where there is nothing to remove, and nowhere else. -/
theorem cleanValue_snd : ∀ (v : Json) (path : PyStr),
    (cleanValue rt v path).2 = [] ↔ v.allKeys (isOpenKey rt) = true
  | .null, _ => ⟨fun _ => rfl, fun _ => rfl⟩
  | .bool _, _ => ⟨fun _ => rfl, fun _ => rfl⟩
  | .int _, _ => ⟨fun _ => rfl, fun _ => rfl⟩
  | .float _, _ => ⟨fun _ => rfl, fun _ => rfl⟩
  | .str _, _ => ⟨fun _ => rfl, fun _ => rfl⟩
  | .list xs, path => by
      rw [cleanValue, Json.allKeys]
      exact cleanItems_snd xs 0 path
  | .dict fs, path => by
      rw [cleanValue, Json.allKeys]
      exact cleanMapping_snd fs path

theorem cleanMapping_snd : ∀ (fs : List (PyStr × Json)) (path : PyStr),
    (cleanMapping rt fs path).2 = [] ↔ Json.allKeysFields (isOpenKey rt) fs = true
  | [], _ => ⟨fun _ => rfl, fun _ => rfl⟩
  | (k, v) :: fs, path => by
      rw [cleanMapping, Json.allKeysFields]
      by_cases hk : isSensitiveKey rt k = true
      · have hopen : isOpenKey rt k = false := by simp [isOpenKey, hk]
        simp only [if_pos hk, hopen, Bool.false_and]
        simp
      · have hopen : isOpenKey rt k = true := by simp [isOpenKey, hk]
        simp only [if_neg hk, hopen, Bool.true_and]
        rw [List.append_eq_nil_iff, Bool.and_eq_true, cleanValue_snd v, cleanMapping_snd fs path]

theorem cleanItems_snd : ∀ (xs : List Json) (i : Nat) (path : PyStr),
    (cleanItems rt xs i path).2 = [] ↔ Json.allKeysItems (isOpenKey rt) xs = true
  | [], _, _ => ⟨fun _ => rfl, fun _ => rfl⟩
  | x :: xs, i, path => by
      rw [cleanItems, Json.allKeysItems]
      show (cleanValue rt x _).2 ++ (cleanItems rt xs (i + 1) path).2 = [] ↔ _
      rw [List.append_eq_nil_iff, Bool.and_eq_true, cleanValue_snd x, cleanItems_snd xs (i + 1) path]
end

/-! ## §2. The guard. -/

mutual
/-- The guard finds a path exactly where a key names a credential. -/
theorem sensitivePath_none_iff : ∀ (v : Json) (path : PyStr),
    sensitivePath rt v path = none ↔ v.allKeys (isOpenKey rt) = true
  | .null, _ => ⟨fun _ => rfl, fun _ => rfl⟩
  | .bool _, _ => ⟨fun _ => rfl, fun _ => rfl⟩
  | .int _, _ => ⟨fun _ => rfl, fun _ => rfl⟩
  | .float _, _ => ⟨fun _ => rfl, fun _ => rfl⟩
  | .str _, _ => ⟨fun _ => rfl, fun _ => rfl⟩
  | .list xs, path => by
      rw [sensitivePath, Json.allKeys]
      exact sensitivePathItems_none_iff xs 0 path
  | .dict fs, path => by
      rw [sensitivePath, Json.allKeys]
      exact sensitivePathFields_none_iff fs path

theorem sensitivePathFields_none_iff : ∀ (fs : List (PyStr × Json)) (path : PyStr),
    sensitivePathFields rt fs path = none ↔ Json.allKeysFields (isOpenKey rt) fs = true
  | [], _ => ⟨fun _ => rfl, fun _ => rfl⟩
  | (k, v) :: fs, path => by
      rw [sensitivePathFields, Json.allKeysFields]
      by_cases hk : isSensitiveKey rt k = true
      · have hopen : isOpenKey rt k = false := by simp [isOpenKey, hk]
        rw [if_pos hk, hopen]
        simp
      · have hopen : isOpenKey rt k = true := by simp [isOpenKey, hk]
        rw [if_neg hk, hopen, Bool.true_and, Bool.and_eq_true, ← sensitivePathFields_none_iff fs path,
          ← sensitivePath_none_iff v (path ++ py "." ++ k)]
        cases sensitivePath rt v (path ++ py "." ++ k) with
        | none => simp
        | some p => simp

theorem sensitivePathItems_none_iff : ∀ (xs : List Json) (i : Nat) (path : PyStr),
    sensitivePathItems rt xs i path = none ↔ Json.allKeysItems (isOpenKey rt) xs = true
  | [], _, _ => ⟨fun _ => rfl, fun _ => rfl⟩
  | x :: xs, i, path => by
      rw [sensitivePathItems, Json.allKeysItems, Bool.and_eq_true,
        ← sensitivePathItems_none_iff xs (i + 1) path,
        ← sensitivePath_none_iff x (path ++ py "[" ++ decimal i ++ py "]")]
      cases sensitivePath rt x (path ++ py "[" ++ decimal i ++ py "]") with
      | none => simp
      | some p => simp
end

/-- The guard, as a condition on the value. -/
theorem assertNoSensitiveKeys_ok_iff (v : Json) (path : PyStr) :
    assertNoSensitiveKeys rt v path = .ok () ↔ v.allKeys (isOpenKey rt) = true := by
  rw [← sensitivePath_none_iff rt v path]
  unfold assertNoSensitiveKeys
  cases sensitivePath rt v path with
  | none => exact ⟨fun _ => rfl, fun _ => rfl⟩
  | some p =>
    constructor
    · intro h
      cases h
    · intro h
      cases h

/-! ## §3. Attributes. -/

/-- Attributes without credentials, and the paths of what was removed. -/
structure Stripped where
  clean : JsonDict
  stripped : List PyStr

/-- `tuple(sorted(set(paths)))`. -/
def sortedSet (paths : List PyStr) : List PyStr := (fromkeys paths).mergeSort strLe

/-- `strip_sensitive_attributes`. -/
def stripSensitiveAttributes (attributes : JsonDict) : Stripped where
  clean := ⟨(cleanMapping rt attributes.fields []).1, by
    rw [cleanMapping_fst]
    exact (attributes.scrub (isOpenKey rt)).nodup⟩
  stripped := sortedSet (cleanMapping rt attributes.fields []).2

theorem strip_clean (attributes : JsonDict) :
    (stripSensitiveAttributes rt attributes).clean = attributes.scrub (isOpenKey rt) := by
  unfold stripSensitiveAttributes JsonDict.scrub
  simp only [cleanMapping_fst]

theorem sortedSet_eq_nil {paths : List PyStr} : sortedSet paths = [] ↔ paths = [] := by
  constructor
  · intro h
    rw [List.eq_nil_iff_forall_not_mem] at h ⊢
    intro p hp
    refine h p ?_
    unfold sortedSet
    rw [List.mem_mergeSort, mem_fromkeys]
    exact hp
  · rintro rfl
    exact List.mergeSort_nil

variable (attributes : JsonDict)

/-- What has been stripped passes the guard. -/
theorem stripped_passes (path : PyStr) :
    assertNoSensitiveKeys rt (stripSensitiveAttributes rt attributes).clean.json path = .ok () := by
  rw [assertNoSensitiveKeys_ok_iff, strip_clean, JsonDict.json_scrub]
  exact Json.allKeys_scrub _

theorem stripped_nil_iff : (stripSensitiveAttributes rt attributes).stripped = [] ↔
    attributes.json.allKeys (isOpenKey rt) = true := by
  unfold stripSensitiveAttributes
  rw [sortedSet_eq_nil, cleanMapping_snd, JsonDict.json, Json.allKeys]

/-- The dict stays as it is where the guard passes it. -/
theorem strip_clean_eq_iff : (stripSensitiveAttributes rt attributes).clean = attributes ↔
    attributes.json.allKeys (isOpenKey rt) = true := by
  rw [strip_clean, ← Json.scrub_eq_iff, ← JsonDict.json_scrub]
  constructor
  · intro h
    rw [h]
  · exact JsonDict.ext_of_json

theorem lookup_strip (key : PyStr) :
    Json.lookup (stripSensitiveAttributes rt attributes).clean.fields key =
      if isOpenKey rt key then (Json.lookup attributes.fields key).map (Json.scrub (isOpenKey rt))
      else none := by
  rw [strip_clean]
  exact Json.lookup_scrub attributes.fields key

/-- **The two walks agree**: what has been stripped passes the guard; it is the dict itself,
with nothing reported, exactly where the dict passes already; and every field that names no
credential is kept, without the credentials inside it. -/
theorem strip_agrees (path : PyStr) :
    assertNoSensitiveKeys rt (stripSensitiveAttributes rt attributes).clean.json path = .ok () ∧
      (assertNoSensitiveKeys rt attributes.json path = .ok () ↔
        (stripSensitiveAttributes rt attributes).stripped = []) ∧
      (assertNoSensitiveKeys rt attributes.json path = .ok () ↔
        (stripSensitiveAttributes rt attributes).clean = attributes) ∧
      ∀ key, Json.lookup (stripSensitiveAttributes rt attributes).clean.fields key =
        if isSensitiveKey rt key then none
        else (Json.lookup attributes.fields key).map (Json.scrub (isOpenKey rt)) := by
  refine ⟨stripped_passes rt attributes path, ?_, ?_, ?_⟩
  · rw [assertNoSensitiveKeys_ok_iff]
    exact (stripped_nil_iff rt attributes).symm
  · rw [assertNoSensitiveKeys_ok_iff]
    exact (strip_clean_eq_iff rt attributes).symm
  · intro key
    rw [lookup_strip]
    unfold isOpenKey
    cases isSensitiveKey rt key with
    | true => rfl
    | false => rfl

/-! ## §4. Values that can be kept. -/

/-- **What receipts and operational records may hold**: no key of the value names a credential,
and the value has a canonical text. -/
structure Storable (v : Json) : Prop where
  keys : v.allKeys (isOpenKey rt) = true
  encodable : v.encodable = true

variable {rt}

theorem isOpenKey_plain {key : PyStr} (h : isPlainKey key = true) : isOpenKey rt key = true := by
  unfold isOpenKey
  rw [isSensitiveKey_plain rt h]
  rfl

theorem storable_null : Storable rt .null := ⟨rfl, rfl⟩
theorem storable_bool (b : Bool) : Storable rt (.bool b) := ⟨rfl, rfl⟩
theorem storable_str (s : PyStr) : Storable rt (.str s) := ⟨rfl, rfl⟩

theorem storable_float {f : PyFloat} (h : f.isFinite = true) : Storable rt (.float f) := ⟨rfl, h⟩

theorem storable_int {n : Int} (h : n.natAbs < 10 ^ 4300) : Storable rt (.int n) :=
  ⟨rfl, decide_eq_true (decimal_length_le (by decide) h)⟩

theorem storable_list {items : List Json} (h : ∀ x ∈ items, Storable rt x) :
    Storable rt (.list items) := by
  constructor
  · rw [Json.allKeys, Json.allKeysItems_iff]
    exact fun x hx => (h x hx).keys
  · rw [Json.encodable, encodableItems_eq, List.all_eq_true]
    exact fun x hx => (h x hx).encodable

/-- What has been stripped can be kept, if it can be encoded. -/
theorem storable_strip {attributes : JsonDict} (h : attributes.json.encodable = true) :
    Storable rt (stripSensitiveAttributes rt attributes).clean.json := by
  rw [strip_clean, JsonDict.json_scrub]
  exact ⟨Json.allKeys_scrub _, Json.encodable_scrub _ h⟩

/-- A literal of plain keys can be kept, if its values can. -/
theorem storable_ofPresent {fields : List (PyStr × Option JsonValue)}
    {hkeys : (fields.map Prod.fst).Nodup} (hplain : (fields.map Prod.fst).all isPlainKey = true)
    (h : ∀ f ∈ fields, ∀ w, f.2 = some w → Storable rt w.val) :
    Storable rt (JsonDict.ofPresent fields hkeys).json := by
  constructor
  · refine JsonDict.allKeys_ofPresent ?_ (fun k w hw => (h _ hw w rfl).keys)
    rw [List.all_eq_true] at hplain ⊢
    exact fun k hk => isOpenKey_plain (hplain k hk)
  · exact JsonDict.encodable_ofPresent (fun k w hw => (h _ hw w rfl).encodable)

/-- **A receipt of what can be kept is admitted** if its names are. -/
theorem ReceiptDraft.new_storable {kind subjectType subjectId : PyStr} {payload : JsonDict}
    (truthLabel : TruthLabel) (evidenceRefs : List PyStr) (hkind : isName kind = true)
    (htype : isName subjectType = true) (hsubject : strip subjectId = subjectId)
    (hne : subjectId ≠ []) (hlen : subjectId.length ≤ 256) (hpayload : Storable rt payload.json) :
    ReceiptDraft.new rt kind subjectType subjectId payload truthLabel evidenceRefs =
      .ok ⟨kind, subjectType, subjectId, payload, truthLabel, cleanRefs evidenceRefs⟩ := by
  have hguard := (assertNoSensitiveKeys_ok_iff rt payload.json (py "payload")).mpr hpayload.keys
  have hjson : canonicalJson rt payload.json = .ok (payload.json.render rt) := by
    unfold canonicalJson
    rw [if_pos hpayload.encodable]
  have hempty : subjectId.isEmpty = false := List.isEmpty_eq_false_iff.mpr hne
  have hshort : decide (256 < subjectId.length) = false := decide_eq_false (by omega)
  unfold ReceiptDraft.new requireName
  rw [hkind, htype]
  simp only [hsubject, hempty, hshort, hguard, hjson, if_true, Bool.or_self, Bool.false_eq_true,
    if_false, bind, Except.bind, pure, Except.pure]

/-- **A record of what can be kept is admitted** if its names are and it cites something. -/
theorem OperationalRecordDraft.new_storable {kind : OperationalEntityKind} {entityId name : PyStr}
    {body metadata : JsonDict} {truthLabel : TruthLabel} {evidenceRefs : List PyStr}
    (hid : strip entityId = entityId) (hidentifier : isIdentifier entityId = true)
    (hname : squeeze name = name) (hne : name ≠ []) (hlen : name.length ≤ 256)
    (hbody : Storable rt body.json) (hmetadata : Storable rt metadata.json)
    (hrefs : cleanRefs evidenceRefs ≠ []) :
    OperationalRecordDraft.new rt kind entityId name body truthLabel evidenceRefs none none
        metadata =
      .ok ⟨kind, entityId, name, body, truthLabel, cleanRefs evidenceRefs, none, none,
        metadata⟩ := by
  have hguard := (assertNoSensitiveKeys_ok_iff rt body.json (py "operational.body")).mpr hbody.keys
  have hguard' := (assertNoSensitiveKeys_ok_iff rt metadata.json
    (py "operational.metadata")).mpr hmetadata.keys
  have hjson : canonicalJson rt body.json = .ok (body.json.render rt) := by
    unfold canonicalJson
    rw [if_pos hbody.encodable]
  have hjson' : canonicalJson rt metadata.json = .ok (metadata.json.render rt) := by
    unfold canonicalJson
    rw [if_pos hmetadata.encodable]
  have hempty : name.isEmpty = false := List.isEmpty_eq_false_iff.mpr hne
  have hshort : decide (256 < name.length) = false := decide_eq_false (by omega)
  have hcited : (cleanRefs evidenceRefs).isEmpty = false := List.isEmpty_eq_false_iff.mpr hrefs
  unfold OperationalRecordDraft.new
  simp only [hid, hidentifier, hname, hempty, hshort, hguard, hguard', hjson, hjson', hcited,
    Bool.not_true, Bool.or_self, Bool.false_eq_true, and_false, if_false, bind, Except.bind,
    pure, Except.pure]
  rfl

end Strip

end Lyte
