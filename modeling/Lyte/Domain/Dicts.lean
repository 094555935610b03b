import Lyte.Domain.RoundTrip

/-
  Lyte.Domain.Dicts — dicts with some of their keys, at any depth.

  `scrub ok` drops every field whose key is not `ok`, from every dict inside a
  value.  It leaves a value as it is exactly where there is nothing to drop:

      allKeys_scrub     nothing that is not `ok` remains,
      scrub_eq_iff      a value of `ok` keys alone is left as it is,
      lookup_scrub      and a field with an `ok` key is kept.

  `JsonDict.ofPresent` is a dict literal some of whose fields may be missing, and
  `Hereditary` says that a property passes from a value to its parts.
-/

namespace Lyte

theorem decimal_length_le {n k : Nat} (hk : 0 < k) (h : n < 10 ^ k) :
    (decimal n).length ≤ k := by
  unfold decimal
  rw [List.length_map]
  exact (Nat.length_toDigits_le_iff (by decide) hk).mpr h

/-- Removing repetitions loses nothing. -/
theorem mem_fromkeys {x : PyStr} {xs : List PyStr} : x ∈ fromkeys xs ↔ x ∈ xs := by
  induction xs with
  | nil => exact Iff.rfl
  | cons y ys ih =>
    unfold fromkeys
    rw [List.mem_cons, List.mem_cons, List.mem_filter, ih]
    by_cases h : x = y
    · simp [h]
    · simp [h]

theorem mem_of_lookup {fs : List (PyStr × Json)} {k : PyStr} {v : Json}
    (h : Json.lookup fs k = some v) : (k, v) ∈ fs := by
  unfold Json.lookup at h
  induction fs with
  | nil => cases h
  | cons f fs ih =>
    rw [List.lookup_cons] at h
    split at h
    · next heq =>
      cases h
      rw [eq_of_beq heq]
      exact List.mem_cons_self
    · exact List.mem_cons_of_mem _ (ih h)

theorem length_fromkeys_le (xs : List PyStr) : (fromkeys xs).length ≤ xs.length := by
  induction xs with
  | nil => exact Nat.le_refl _
  | cons x xs ih =>
    unfold fromkeys
    have hfilter := List.length_filter_le (fun y => decide (y ≠ x)) (fromkeys xs)
    rw [List.length_cons, List.length_cons]
    omega

namespace Json

/-! ## §1. Keys. -/

mutual
/-- Every key of every dict in the value passes. -/
def allKeys (ok : PyStr → Bool) : Json → Bool
  | .list items => allKeysItems ok items
  | .dict fields => allKeysFields ok fields
  | _ => true

def allKeysItems (ok : PyStr → Bool) : List Json → Bool
  | [] => true
  | x :: xs => x.allKeys ok && allKeysItems ok xs

def allKeysFields (ok : PyStr → Bool) : List (PyStr × Json) → Bool
  | [] => true
  | (k, v) :: fs => ok k && v.allKeys ok && allKeysFields ok fs
end

mutual
/-- The value without the fields whose key does not pass. -/
def scrub (ok : PyStr → Bool) : Json → Json
  | .list items => .list (scrubItems ok items)
  | .dict fields => .dict (scrubFields ok fields)
  | v => v

def scrubItems (ok : PyStr → Bool) : List Json → List Json
  | [] => []
  | x :: xs => x.scrub ok :: scrubItems ok xs

def scrubFields (ok : PyStr → Bool) : List (PyStr × Json) → List (PyStr × Json)
  | [] => []
  | (k, v) :: fs => if ok k then (k, v.scrub ok) :: scrubFields ok fs else scrubFields ok fs
end

section Keys

variable {ok : PyStr → Bool}

theorem allKeysFields_iff {fs : List (PyStr × Json)} :
    allKeysFields ok fs = true ↔ ∀ f ∈ fs, ok f.1 = true ∧ f.2.allKeys ok = true := by
  induction fs with
  | nil => simp [allKeysFields]
  | cons f fs ih =>
    obtain ⟨k, v⟩ := f
    rw [allKeysFields, Bool.and_eq_true, Bool.and_eq_true, ih, List.forall_mem_cons]

theorem allKeysItems_iff {xs : List Json} :
    allKeysItems ok xs = true ↔ ∀ x ∈ xs, x.allKeys ok = true := by
  induction xs with
  | nil => simp [allKeysItems]
  | cons x xs ih => rw [allKeysItems, Bool.and_eq_true, ih, List.forall_mem_cons]

/-! ## §2. Scrubbing. -/

mutual
/-- **Nothing that does not pass remains.** -/
theorem allKeys_scrub : ∀ v : Json, (v.scrub ok).allKeys ok = true
  | .null => rfl
  | .bool _ => rfl
  | .int _ => rfl
  | .float _ => rfl
  | .str _ => rfl
  | .list xs => by
      rw [scrub, allKeys]
      exact allKeysItems_scrub xs
  | .dict fs => by
      rw [scrub, allKeys]
      exact allKeysFields_scrub fs

theorem allKeysItems_scrub : ∀ xs : List Json, allKeysItems ok (scrubItems ok xs) = true
  | [] => rfl
  | x :: xs => by rw [scrubItems, allKeysItems, allKeys_scrub x, allKeysItems_scrub xs]; rfl

theorem allKeysFields_scrub :
    ∀ fs : List (PyStr × Json), allKeysFields ok (scrubFields ok fs) = true
  | [] => rfl
  | (k, v) :: fs => by
      by_cases hk : ok k = true
      · rw [scrubFields, if_pos hk, allKeysFields, hk, allKeys_scrub v, allKeysFields_scrub fs]
        rfl
      · rw [scrubFields, if_neg hk]
        exact allKeysFields_scrub fs
end

mutual
/-- A value of keys that pass is left as it is. -/
theorem scrub_of_allKeys : ∀ v : Json, v.allKeys ok = true → v.scrub ok = v
  | .null, _ => rfl
  | .bool _, _ => rfl
  | .int _, _ => rfl
  | .float _, _ => rfl
  | .str _, _ => rfl
  | .list xs, h => by
      rw [allKeys] at h
      rw [scrub, scrubItems_of_allKeys xs h]
  | .dict fs, h => by
      rw [allKeys] at h
      rw [scrub, scrubFields_of_allKeys fs h]

theorem scrubItems_of_allKeys : ∀ xs : List Json, allKeysItems ok xs = true → scrubItems ok xs = xs
  | [], _ => rfl
  | x :: xs, h => by
      rw [allKeysItems, Bool.and_eq_true] at h
      rw [scrubItems, scrub_of_allKeys x h.1, scrubItems_of_allKeys xs h.2]

theorem scrubFields_of_allKeys :
    ∀ fs : List (PyStr × Json), allKeysFields ok fs = true → scrubFields ok fs = fs
  | [], _ => rfl
  | (k, v) :: fs, h => by
      rw [allKeysFields, Bool.and_eq_true, Bool.and_eq_true] at h
      rw [scrubFields, if_pos h.1.1, scrub_of_allKeys v h.1.2, scrubFields_of_allKeys fs h.2]
end

/-- **Where there is nothing to drop, nothing is dropped**, and nowhere else. -/
theorem scrub_eq_iff {v : Json} : v.scrub ok = v ↔ v.allKeys ok = true := by
  constructor
  · intro h
    rw [← h]
    exact allKeys_scrub v
  · exact scrub_of_allKeys v

theorem lookup_scrub (fs : List (PyStr × Json)) (k : PyStr) :
    lookup (scrubFields ok fs) k = if ok k then (lookup fs k).map (scrub ok) else none := by
  unfold lookup
  induction fs with
  | nil => simp [scrubFields]
  | cons f fs ih =>
    obtain ⟨k', v⟩ := f
    by_cases hk : k = k'
    · subst hk
      by_cases hok : ok k = true
      · simp [scrubFields, hok]
      · rw [scrubFields, if_neg hok, ih, if_neg hok, if_neg hok]
    · have hne : (k == k') = false := beq_eq_false_iff_ne.mpr hk
      rw [List.lookup_cons, hne, ← ih, scrubFields]
      split
      · rw [List.lookup_cons, hne]
      · rfl

theorem key_scrub {fs : List (PyStr × Json)} {k : PyStr}
    (h : k ∈ (scrubFields ok fs).map Prod.fst) : k ∈ fs.map Prod.fst := by
  induction fs with
  | nil => cases h
  | cons f fs ih =>
    obtain ⟨k', v⟩ := f
    rw [scrubFields] at h
    split at h
    · rcases List.mem_cons.mp h with h | h
      · rw [h]
        exact List.mem_cons_self
      · exact List.mem_cons_of_mem _ (ih h)
    · exact List.mem_cons_of_mem _ (ih h)

mutual
theorem nodupKeys_scrub : ∀ v : Json, v.nodupKeys = true → (v.scrub ok).nodupKeys = true
  | .null, _ => rfl
  | .bool _, _ => rfl
  | .int _, _ => rfl
  | .float _, _ => rfl
  | .str _, _ => rfl
  | .list xs, h => by
      rw [nodupKeys] at h
      rw [scrub, nodupKeys]
      exact nodupKeysItems_scrub xs h
  | .dict fs, h => by
      rw [nodupKeys, Bool.and_eq_true, decide_eq_true_eq] at h
      rw [scrub, nodupKeys, Bool.and_eq_true, decide_eq_true_eq]
      exact nodupKeysFields_scrub fs h.1 h.2

theorem nodupKeysItems_scrub :
    ∀ xs : List Json, nodupKeysItems xs = true → nodupKeysItems (scrubItems ok xs) = true
  | [], _ => rfl
  | x :: xs, h => by
      rw [nodupKeysItems, Bool.and_eq_true] at h
      rw [scrubItems, nodupKeysItems, nodupKeys_scrub x h.1, nodupKeysItems_scrub xs h.2]
      rfl

theorem nodupKeysFields_scrub :
    ∀ fs : List (PyStr × Json), (fs.map Prod.fst).Nodup → nodupKeysFields fs = true →
      ((scrubFields ok fs).map Prod.fst).Nodup ∧ nodupKeysFields (scrubFields ok fs) = true
  | [], _, _ => ⟨List.nodup_nil, rfl⟩
  | (k, v) :: fs, hk, h => by
      rw [List.map_cons, List.nodup_cons] at hk
      rw [nodupKeysFields, Bool.and_eq_true] at h
      obtain ⟨hkeys, hvalues⟩ := nodupKeysFields_scrub fs hk.2 h.2
      rw [scrubFields]
      split
      · rw [List.map_cons, List.nodup_cons, nodupKeysFields, nodupKeys_scrub v h.1, hvalues]
        exact ⟨⟨fun hmem => hk.1 (key_scrub hmem), hkeys⟩, rfl⟩
      · exact ⟨hkeys, hvalues⟩
end

mutual
theorem encodable_scrub : ∀ v : Json, v.encodable = true → (v.scrub ok).encodable = true
  | .null, _ => rfl
  | .bool _, _ => rfl
  | .int _, h => h
  | .float _, h => h
  | .str _, _ => rfl
  | .list xs, h => by
      rw [encodable] at h
      rw [scrub, encodable]
      exact encodableItems_scrub xs h
  | .dict fs, h => by
      rw [encodable] at h
      rw [scrub, encodable]
      exact encodableFields_scrub fs h

theorem encodableItems_scrub :
    ∀ xs : List Json, encodableItems xs = true → encodableItems (scrubItems ok xs) = true
  | [], _ => rfl
  | x :: xs, h => by
      rw [encodableItems, Bool.and_eq_true] at h
      rw [scrubItems, encodableItems, encodable_scrub x h.1, encodableItems_scrub xs h.2]
      rfl

theorem encodableFields_scrub :
    ∀ fs : List (PyStr × Json), encodableFields fs = true →
      encodableFields (scrubFields ok fs) = true
  | [], _ => rfl
  | (k, v) :: fs, h => by
      rw [encodableFields, Bool.and_eq_true] at h
      rw [scrubFields]
      split
      · rw [encodableFields, encodable_scrub v h.1, encodableFields_scrub fs h.2]
        rfl
      · exact encodableFields_scrub fs h.2
end

end Keys

end Json

/-! ## §3. Dict literals. -/

/-- A value that a dict may hold: no key occurs twice inside it. -/
abbrev JsonValue := { v : Json // v.nodupKeys = true }

/-- The fields of a literal that are there. -/
def presentFields (fields : List (PyStr × Option JsonValue)) : List (PyStr × Json) :=
  fields.filterMap (fun f => f.2.map (fun v => (f.1, v.val)))

theorem mem_presentFields {fields : List (PyStr × Option JsonValue)} {k : PyStr} {v : Json} :
    (k, v) ∈ presentFields fields ↔ ∃ w : JsonValue, (k, some w) ∈ fields ∧ w.val = v := by
  unfold presentFields
  rw [List.mem_filterMap]
  constructor
  · rintro ⟨f, hf, h⟩
    obtain ⟨w, hw, h⟩ := Option.map_eq_some_iff.mp h
    cases h
    exact ⟨w, by rw [← hw]; exact hf, rfl⟩
  · rintro ⟨w, hw, rfl⟩
    exact ⟨_, hw, rfl⟩

theorem keys_presentFields (fields : List (PyStr × Option JsonValue)) :
    ((presentFields fields).map Prod.fst).Sublist (fields.map Prod.fst) := by
  induction fields with
  | nil => exact List.Sublist.slnil
  | cons f fields ih =>
    obtain ⟨k, v⟩ := f
    cases v with
    | none => exact ih.cons k
    | some v => exact ih.cons_cons k

namespace JsonDict

def keys (d : JsonDict) : List PyStr := d.fields.map Prod.fst

theorem keys_nodup (d : JsonDict) : d.keys.Nodup := by
  have h := d.nodup
  rw [Json.nodupKeys, Bool.and_eq_true, decide_eq_true_eq] at h
  exact h.1

theorem values_nodup (d : JsonDict) : ∀ f ∈ d.fields, f.2.nodupKeys = true := by
  have h := d.nodup
  rw [Json.nodupKeys, Bool.and_eq_true, nodupKeysFields_eq, List.all_eq_true] at h
  exact h.2

/-- A dict from distinct keys. -/
def ofFields (fields : List (PyStr × Json)) (hkeys : (fields.map Prod.fst).Nodup)
    (hvalues : ∀ f ∈ fields, f.2.nodupKeys = true) : JsonDict where
  fields := fields
  nodup := by
    rw [Json.nodupKeys, Bool.and_eq_true, decide_eq_true_eq, nodupKeysFields_eq, List.all_eq_true]
    exact ⟨hkeys, hvalues⟩

/-- A dict literal, without the fields that are missing. -/
def ofPresent (fields : List (PyStr × Option JsonValue)) (hkeys : (fields.map Prod.fst).Nodup) :
    JsonDict :=
  ofFields (presentFields fields) (hkeys.sublist (keys_presentFields fields)) (by
    rintro ⟨k, v⟩ hf
    obtain ⟨w, _, rfl⟩ := mem_presentFields.mp hf
    exact w.property)

/-- `d[key] = value`, for a key that `d` has not. -/
def add (d : JsonDict) (key : PyStr) (value : JsonValue) (h : key ∉ d.keys) : JsonDict :=
  ofFields (d.fields ++ [(key, value.val)])
    (by
      rw [List.map_append, List.nodup_append]
      refine ⟨d.keys_nodup, List.pairwise_singleton _ _, ?_⟩
      intro a ha b hb hab
      rw [List.map_cons, List.map_nil, List.mem_singleton] at hb
      rw [hab, hb] at ha
      exact h ha)
    (by
      intro f hf
      rcases List.mem_append.mp hf with hf | hf
      · exact d.values_nodup f hf
      · rw [List.mem_singleton.mp hf]
        exact value.property)

/-- The dict without the fields whose key does not pass. -/
def scrub (ok : PyStr → Bool) (d : JsonDict) : JsonDict where
  fields := Json.scrubFields ok d.fields
  nodup := Json.nodupKeys_scrub d.json d.nodup

/-- A dict is what its value is. -/
theorem ext_of_json {d e : JsonDict} (h : d.json = e.json) : d = e := by
  obtain ⟨fields, hd⟩ := d
  obtain ⟨fields', he⟩ := e
  obtain rfl : fields = fields' := Json.dict.inj h
  rfl

/-- The dict as a value of another. -/
def value (d : JsonDict) : JsonValue := ⟨d.json, d.nodup⟩

@[simp] theorem json_scrub (ok : PyStr → Bool) (d : JsonDict) :
    (d.scrub ok).json = d.json.scrub ok := by
  rw [json, json, Json.scrub]
  rfl

theorem allKeys_ofPresent {ok : PyStr → Bool} {fields : List (PyStr × Option JsonValue)}
    {hkeys : (fields.map Prod.fst).Nodup} (hok : (fields.map Prod.fst).all ok = true)
    (hvalues : ∀ k (w : JsonValue), (k, some w) ∈ fields → w.val.allKeys ok = true) :
    (ofPresent fields hkeys).json.allKeys ok = true := by
  show Json.allKeys ok (.dict (presentFields fields)) = true
  rw [Json.allKeys, Json.allKeysFields_iff]
  rintro ⟨k, v⟩ hf
  obtain ⟨w, hw, rfl⟩ := mem_presentFields.mp hf
  exact ⟨List.all_eq_true.mp hok k (List.mem_map.mpr ⟨_, hw, rfl⟩), hvalues k w hw⟩

theorem encodable_ofPresent {fields : List (PyStr × Option JsonValue)}
    {hkeys : (fields.map Prod.fst).Nodup}
    (hvalues : ∀ k (w : JsonValue), (k, some w) ∈ fields → w.val.encodable = true) :
    (ofPresent fields hkeys).json.encodable = true := by
  show Json.encodable (.dict (presentFields fields)) = true
  rw [Json.encodable, encodableFields_eq, List.all_eq_true]
  rintro ⟨k, v⟩ hf
  obtain ⟨w, hw, rfl⟩ := mem_presentFields.mp hf
  exact hvalues k w hw

end JsonDict

/-! ## §4. Parts of a value. -/

/-- A property that a value hands down to its parts. -/
structure Json.Hereditary (p : Json → Prop) : Prop where
  null : p .null
  item : ∀ {items x}, p (.list items) → x ∈ items → p x
  field : ∀ {fields k v}, p (.dict fields) → (k, v) ∈ fields → p v

theorem Json.Hereditary.get {p : Json → Prop} (hp : Hereditary p) {fields : List (PyStr × Json)}
    (h : p (.dict fields)) (key : PyStr) : p (Json.get fields key) := by
  unfold Json.get
  cases hv : Json.lookup fields key with
  | none => exact hp.null
  | some v => exact hp.field h (mem_of_lookup hv)

theorem Json.hereditary_encodable : Json.Hereditary (fun v => v.encodable = true) where
  null := rfl
  item h hx := by
    rw [Json.encodable, encodableItems_eq, List.all_eq_true] at h
    exact h _ hx
  field h hf := by
    rw [Json.encodable, encodableFields_eq, List.all_eq_true] at h
    exact h _ hf

end Lyte
