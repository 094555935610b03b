import Lyte.Connectors.OtlpRecords
import Lyte.Connectors.WebhookFailures

/-
  Lyte.Connectors.OtlpAdmission — an accepted export can be kept.

  Whatever the document of an export holds, what is read from it is `Storable`: the
  attributes have been stripped, the other keys are the ingestor's own, and every
  number is bounded or as the document has it.  So the receipt and the operational
  record of an export are never refused by their drafts:

      MadeOf.sound       a record of an encodable document is sound,
      accept_iff         a batch is refused for its key or for being empty,
      toDict_storable    and can be kept as a whole.
-/

namespace Lyte

open Transact Search OtlpJsonIngestor

/-! ## §1. What a field can be. -/

theorem unsigned_lt {value : Json} {path : PyStr} {n : Nat} (h : unsigned value path = .ok n) :
    n < 2 ^ 64 := by
  unfold unsigned at h
  split at h
  · split at h
    · cases h
    · split at h
      · cases h
      · next hle =>
        cases h
        omega
  · cases h

theorem signed_bound {value : Json} {path : PyStr} {n : Int} (h : signed value path = .ok n) :
    n.natAbs ≤ 2 ^ 63 := by
  unfold signed at h
  split at h
  · split at h
    · cases h
    · split at h
      · next hrange =>
        cases h
        omega
      · cases h
  · cases h

theorem flags_eq {value : Json} {path : PyStr} {n : Int} (h : flags value path = .ok n) :
    value = .int n := by
  unfold flags at h
  split at h
  · cases h
    rfl
  · cases h

theorem severity_bound {value : Json} {path : PyStr} {n : Int} (h : severity value path = .ok n) :
    n.natAbs ≤ 24 := by
  unfold severity at h
  split at h
  · split at h
    · next hrange =>
      cases h
      omega
    · cases h
  · cases h

theorem number_finite {rt : OtlpRuntime} {value : Json} {path : PyStr} {f : PyFloat}
    (h : number rt value path = .ok f) : f.isFinite = true := by
  have hfinite : ∀ parsed : PyFloat, (if parsed.isFinite then Except.ok parsed
      else Except.error (refused path " must be finite")) = .ok f → f.isFinite = true := by
    intro parsed hp
    split at hp
    · next hf =>
      cases hp
      exact hf
    · cases hp
  unfold number at h
  simp only at h
  split at h
  · split at h
    · cases h
    · exact hfinite _ h
  · exact hfinite _ h
  · cases h

/-- An optional field is absent, or was parsed. -/
theorem ifPresent_ok {α : Type} {fields : List (PyStr × Json)} {name : PyStr}
    {parse : Json → Except Exn α} {o : Option α} (h : ifPresent fields name parse = .ok o) {a : α}
    (ha : o = some a) : parse (Json.get fields name) = .ok a := by
  unfold ifPresent at h
  split at h
  · cases h
    cases ha
  · next value hvalue =>
    obtain ⟨b, hb, h⟩ := ok_of_bind h
    cases h
    cases ha
    unfold Json.get
    rw [hvalue]
    exact hb

/-- What every element is parsed as. -/
theorem mapIndexed_forall {α : Type} {f : Json → PyStr → Except Exn α} {p : α → Prop}
    (hf : ∀ v path a, f v path = .ok a → p a) {path : PyStr} {items : List Json} {i : Nat}
    {as : List α} (h : mapIndexed f path i items = .ok as) : ∀ a ∈ as, p a := by
  induction items generalizing i as with
  | nil =>
    cases h
    intro a ha
    cases ha
  | cons raw rest ih =>
    obtain ⟨b, hb, h⟩ := ok_of_bind h
    obtain ⟨bs, hbs, h⟩ := ok_of_bind h
    cases h
    rw [List.forall_mem_cons]
    exact ⟨hf _ _ _ hb, ih hbs⟩

section Sound

variable {rt : OtlpRuntime} {limits : OtlpLimits}

theorem two_pow_le {k : Nat} (h : 20 ≤ k) : 2 ^ 64 ≤ 10 ^ k := by
  have hsmall : 2 ^ 64 ≤ 10 ^ 20 := by decide
  exact Nat.le_trans hsmall (Nat.pow_le_pow_right (Nat.succ_pos 9) h)

theorem storable_uint {rt : Runtime} {n : Nat} (h : n < 2 ^ 64) : Storable rt (.int n) :=
  storable_int (Nat.lt_of_lt_of_le h (two_pow_le (by decide)))

theorem storable_sint {rt : Runtime} {n : Int} (h : n.natAbs ≤ 2 ^ 63) : Storable rt (.int n) := by
  have hlt : n.natAbs < 2 ^ 64 := by omega
  exact storable_int (Nat.lt_of_lt_of_le hlt (two_pow_le (by decide)))

/-! ## §2. Attributes. -/

theorem anyValue_storable {value : Json} {path : PyStr} {s : OtlpScalar}
    (h : anyValue rt limits value path = .ok s) : Storable rt.toRuntime s.value.val := by
  obtain ⟨item, _, h⟩ := ok_of_bind h
  obtain ⟨_, _, h⟩ := ok_of_bind h
  split at h
  · next field _ =>
    simp only at h
    split at h
    · obtain ⟨text, _, h⟩ := ok_of_bind h
      cases h
      exact storable_str text
    · split at h
      · split at h
        · cases h
          exact storable_bool _
        · cases h
      · split at h
        · obtain ⟨n, hn, h⟩ := ok_of_bind h
          cases h
          exact storable_sint (signed_bound hn)
        · obtain ⟨f, hf, h⟩ := ok_of_bind h
          cases h
          exact storable_float (number_finite hf)
  · cases h

/-- What the attributes of a set are: scalars. -/
def Scalars (d : JsonDict) : Prop := ∀ f ∈ d.fields, ∃ s : OtlpScalar, f.2 = s.value.val ∧
  s.value.val.encodable = true

/-- As many scalars as there are items. -/
theorem attributeItems_ok {path : PyStr} {items : List Json} {i : Nat} {parsed d : JsonDict}
    (hparsed : Scalars parsed) (h : attributeItems rt limits path i items parsed = .ok d) :
    Scalars d ∧ d.fields.length = parsed.fields.length + items.length := by
  induction items generalizing i parsed with
  | nil =>
    cases h
    exact ⟨hparsed, rfl⟩
  | cons raw rest ih =>
    obtain ⟨item, _, h⟩ := ok_of_bind h
    obtain ⟨_, _, h⟩ := ok_of_bind h
    obtain ⟨key, _, h⟩ := ok_of_bind h
    split at h
    · cases h
    · obtain ⟨s, hs, h⟩ := ok_of_bind h
      have hadded : ∀ hnew, Scalars (parsed.add key s.value hnew) := by
        intro hnew f hf
        rcases List.mem_append.mp hf with hf | hf
        · exact hparsed f hf
        · rw [List.mem_singleton.mp hf]
          exact ⟨s, rfl, (anyValue_storable hs).encodable⟩
      obtain ⟨hscalars, hlength⟩ := ih (hadded _) h
      refine ⟨hscalars, ?_⟩
      rw [hlength, List.length_cons]
      show (parsed.fields ++ [(key, s.value.val)]).length + rest.length = _
      rw [List.length_append, List.length_singleton]
      omega

theorem encodable_of_scalars {d : JsonDict} (h : Scalars d) : d.json.encodable = true := by
  rw [JsonDict.json, Json.encodable, encodableFields_eq, List.all_eq_true]
  intro f hf
  obtain ⟨s, hs, hencodable⟩ := h f hf
  rw [hs]
  exact hencodable

/-- Of scalars, at most one path each is stripped. -/
theorem cleanMapping_scalars (rt : Runtime) {fields : List (PyStr × Json)} (path : PyStr)
    (h : ∀ f ∈ fields, ∃ s : OtlpScalar, f.2 = s.value.val) :
    (cleanMapping rt fields path).2.length ≤ fields.length := by
  induction fields with
  | nil => exact Nat.le_refl _
  | cons f fields ih =>
    obtain ⟨k, v⟩ := f
    rw [List.forall_mem_cons] at h
    obtain ⟨⟨s, hs⟩, hrest⟩ := h
    have hmore := ih hrest
    have hnone : ∀ p, (cleanValue rt v p).2 = [] := by
      intro p
      change v = s.value.val at hs
      rw [hs]
      cases s with
      | stringValue _ => rfl
      | boolValue _ => rfl
      | intValue _ => rfl
      | doubleValue _ => rfl
    rw [cleanMapping]
    by_cases hk : isSensitiveKey rt k = true
    · simp only [if_pos hk, List.length_cons]
      omega
    · simp only [if_neg hk, hnone, List.nil_append, List.length_cons]
      omega

theorem length_sortedSet_le (paths : List PyStr) : (sortedSet paths).length ≤ paths.length := by
  unfold sortedSet
  rw [List.length_mergeSort]
  exact length_fromkeys_le paths

/-- **Attributes can be kept**, and no more of them are stripped than the limit. -/
theorem attributes_ok {value : Json} {path : PyStr} {s : Stripped}
    (h : attributes rt limits value path = .ok s) :
    Storable rt.toRuntime s.clean.json ∧ s.stripped.length ≤ limits.maxAttributesPerSet := by
  unfold attributes at h
  split at h
  · cases h
    exact ⟨⟨rfl, rfl⟩, Nat.zero_le _⟩
  · obtain ⟨items, hitems, h⟩ := ok_of_bind h
    obtain ⟨parsed, hparsed, h⟩ := ok_of_bind h
    cases h
    obtain ⟨_, hle⟩ := requireList_ok hitems
    obtain ⟨hscalars, hlength⟩ := attributeItems_ok (fun _ hf => by cases hf) hparsed
    refine ⟨storable_strip (encodable_of_scalars hscalars), ?_⟩
    have hvalues : ∀ f ∈ parsed.fields, ∃ x : OtlpScalar, f.2 = x.value.val :=
      fun f hf => (hscalars f hf).imp fun _ hs => hs.1
    have hcount := cleanMapping_scalars rt.toRuntime [] hvalues
    have hsorted := length_sortedSet_le (cleanMapping rt.toRuntime parsed.fields []).2
    change (sortedSet (cleanMapping rt.toRuntime parsed.fields []).2).length ≤ _
    change parsed.fields.length = 0 + items.length at hlength
    omega

theorem resource_ok {value : Json} {path : PyStr} {s : Stripped}
    (h : resource rt limits value path = .ok s) :
    Storable rt.toRuntime s.clean.json ∧ s.stripped.length ≤ limits.maxAttributesPerSet := by
  unfold resource at h
  split at h
  · cases h
    exact ⟨⟨rfl, rfl⟩, Nat.zero_le _⟩
  · obtain ⟨fields, _, h⟩ := ok_of_bind h
    obtain ⟨_, _, h⟩ := ok_of_bind h
    exact attributes_ok h

theorem scope_ok {value : Json} {path : PyStr} {s : Stripped}
    (h : scope rt limits value path = .ok s) :
    Storable rt.toRuntime s.clean.json ∧ s.stripped.length ≤ limits.maxAttributesPerSet := by
  unfold scope at h
  split at h
  · cases h
    exact ⟨⟨rfl, rfl⟩, Nat.zero_le _⟩
  · obtain ⟨fields, _, h⟩ := ok_of_bind h
    obtain ⟨_, _, h⟩ := ok_of_bind h
    obtain ⟨name, _, h⟩ := ok_of_bind h
    obtain ⟨version, _, h⟩ := ok_of_bind h
    obtain ⟨attrs, hattrs, h⟩ := ok_of_bind h
    cases h
    obtain ⟨hclean, hcount⟩ := attributes_ok hattrs
    refine ⟨?_, hcount⟩
    show Storable _ (scopeDict name version attrs.clean).json
    refine storable_ofPresent (by simp only [List.map_cons, List.map_nil]; decide +kernel) ?_
    simp only [List.forall_mem_cons, List.not_mem_nil, false_imp_iff, implies_true, and_true]
    refine ⟨?_, ?_, ?_⟩
    · intro w hw
      obtain ⟨text, _, rfl⟩ := Option.map_eq_some_iff.mp hw
      exact storable_str text
    · intro w hw
      obtain ⟨text, _, rfl⟩ := Option.map_eq_some_iff.mp hw
      exact storable_str text
    · intro w hw
      split at hw
      · cases hw
      · cases hw
        exact hclean

/-! ## §3. Records. -/

/-- **A record that can be kept.** -/
structure OtlpRecord.Sound (rt : Runtime) (r : OtlpRecord) : Prop where
  time : r.timeUnixNano < 2 ^ 64
  resource : Storable rt r.resourceAttributes.json
  scope : Storable rt r.scope.json
  attributes : Storable rt r.attributes.json
  data : Storable rt r.data.json

/-- An optional field of a literal. -/
theorem storable_map {rt : Runtime} {α : Type} {o : Option α} {f : α → JsonValue}
    (h : ∀ a, o = some a → Storable rt (f a).val) : ∀ w, o.map f = some w → Storable rt w.val := by
  intro w hw
  obtain ⟨a, ha, rfl⟩ := Option.map_eq_some_iff.mp hw
  exact h a ha

theorem storable_some {rt : Runtime} {v : JsonValue} (h : Storable rt v.val) :
    ∀ w, some v = some w → Storable rt w.val := by
  intro w hw
  cases hw
  exact h

theorem OtlpRecord.Sound.toDict {rt : Runtime} {r : OtlpRecord} (h : r.Sound rt) :
    Storable rt r.toDict.json := by
  refine storable_ofPresent (by simp only [List.map_cons, List.map_nil]; decide +kernel) ?_
  simp only [List.forall_mem_cons, List.not_mem_nil, false_imp_iff, implies_true, and_true]
  exact ⟨storable_some (storable_str _), storable_some (storable_str _),
    storable_some (storable_uint h.time), storable_some h.resource, storable_some h.scope,
    storable_some h.attributes, storable_some h.data, storable_some (storable_str _)⟩

theorem OtlpSpan.status_storable (rt : Runtime) (s : OtlpSpan) :
    Storable rt s.status.json := by
  refine storable_ofPresent (by simp only [List.map_cons, List.map_nil]; decide +kernel) ?_
  simp only [List.forall_mem_cons, List.not_mem_nil, false_imp_iff, implies_true, and_true]
  exact ⟨storable_some (storable_str _), storable_map (fun _ _ => storable_str _)⟩

theorem OtlpSpan.data_storable (rt : Runtime) {s : OtlpSpan} (hstart : s.startTime < 2 ^ 64)
    (hend : s.endTime < 2 ^ 64) : Storable rt s.data.json := by
  refine storable_ofPresent (by simp only [List.map_cons, List.map_nil]; decide +kernel) ?_
  simp only [List.forall_mem_cons, List.not_mem_nil, false_imp_iff, implies_true, and_true]
  have hparent : Storable rt ((s.parentSpanId.map JsonValue.str).getD .null).val := by
    cases s.parentSpanId with
    | none => exact storable_null
    | some parent => exact storable_str parent
  exact ⟨storable_some (storable_str _), storable_some (storable_str _), storable_some hparent,
    storable_some (storable_uint hstart), storable_some (storable_uint hend),
    storable_some (storable_uint (by omega)), storable_some (storable_str _),
    storable_some (s.status_storable rt), storable_map (fun _ _ => storable_str _)⟩

/-- A span, read. -/
theorem parseSpan_sound {value : Json} {path : PyStr} {resource' scope' : JsonDict}
    {made : OtlpRecord × List PyStr} (hresource : Storable rt.toRuntime resource'.json)
    (hscope : Storable rt.toRuntime scope'.json)
    (h : parseSpan rt limits value path resource' scope' = .ok made) :
    made.1.Sound rt.toRuntime ∧ made.2.length ≤ limits.maxAttributesPerSet := by
  obtain ⟨span, _, h⟩ := ok_of_bind h
  obtain ⟨_, _, h⟩ := ok_of_bind h
  obtain ⟨traceId, _, h⟩ := ok_of_bind h
  obtain ⟨spanId, _, h⟩ := ok_of_bind h
  obtain ⟨parentId, _, h⟩ := ok_of_bind h
  obtain ⟨startTime, hstart, h⟩ := ok_of_bind h
  obtain ⟨endTime, hend, h⟩ := ok_of_bind h
  split at h
  · cases h
  · obtain ⟨status, _, h⟩ := ok_of_bind h
    obtain ⟨_, _, h⟩ := ok_of_bind h
    obtain ⟨code, _, h⟩ := ok_of_bind h
    obtain ⟨message, _, h⟩ := ok_of_bind h
    obtain ⟨kind, _, h⟩ := ok_of_bind h
    obtain ⟨traceState, _, h⟩ := ok_of_bind h
    obtain ⟨name, _, h⟩ := ok_of_bind h
    obtain ⟨attrs, hattrs, h⟩ := ok_of_bind h
    cases h
    obtain ⟨hclean, hcount⟩ := attributes_ok hattrs
    exact ⟨⟨unsigned_lt hend, hresource, hscope, hclean,
      OtlpSpan.data_storable _ (unsigned_lt hstart) (unsigned_lt hend)⟩, hcount⟩

/-- Flags are as the document has them. -/
theorem flags_storable {fields : List (PyStr × Json)} {path : PyStr} {o : Option Int}
    (hfields : (Json.dict fields).encodable = true)
    (h : ifPresent fields (py "flags") (fun v => flags v (dotted path (py "flags"))) = .ok o)
    {n : Int} (hn : o = some n) : Storable rt.toRuntime (.int n) := by
  have hflag := flags_eq (ifPresent_ok h hn)
  refine ⟨rfl, ?_⟩
  rw [← hflag]
  exact Json.hereditary_encodable.get hfields _

theorem OtlpLogRecord.data_storable (rt : Runtime) {r : OtlpLogRecord}
    (hbody : Storable rt r.body.value.val)
    (hobserved : ∀ n, r.observedTime = some n → n < 2 ^ 64)
    (hseverity : ∀ n, r.severityNumber = some n → n.natAbs ≤ 24)
    (hflags : ∀ n, r.flags = some n → Storable rt (.int n)) : Storable rt r.data.json := by
  refine storable_ofPresent (by simp only [List.map_cons, List.map_nil]; decide +kernel) ?_
  simp only [List.forall_mem_cons, List.not_mem_nil, false_imp_iff, implies_true, and_true]
  refine ⟨storable_some hbody, storable_map (fun n hn => storable_uint (hobserved n hn)),
    storable_map ?_, storable_map (fun _ _ => storable_str _), storable_map hflags,
    storable_map (fun _ _ => storable_str _), storable_map (fun _ _ => storable_str _)⟩
  intro n hn
  have hle := hseverity n hn
  exact storable_sint (by omega)

/-- A log record, read from an encodable value. -/
theorem parseLogRecord_sound {value : Json} (hvalue : value.encodable = true) {path : PyStr}
    {resource' scope' : JsonDict} {made : OtlpRecord × List PyStr}
    (hresource : Storable rt.toRuntime resource'.json) (hscope : Storable rt.toRuntime scope'.json)
    (h : parseLogRecord rt limits value path resource' scope' = .ok made) :
    made.1.Sound rt.toRuntime ∧ made.2.length ≤ limits.maxAttributesPerSet := by
  obtain ⟨record, hrecord, h⟩ := ok_of_bind h
  obtain ⟨_, _, h⟩ := ok_of_bind h
  obtain ⟨timestamp, htime, h⟩ := ok_of_bind h
  obtain ⟨body, hbody, h⟩ := ok_of_bind h
  obtain ⟨observedTime, hobserved, h⟩ := ok_of_bind h
  obtain ⟨severityNumber, hseverity, h⟩ := ok_of_bind h
  obtain ⟨severityText, _, h⟩ := ok_of_bind h
  obtain ⟨flagged, hflags, h⟩ := ok_of_bind h
  obtain ⟨traceId, _, h⟩ := ok_of_bind h
  obtain ⟨spanId, _, h⟩ := ok_of_bind h
  obtain ⟨attrs, hattrs, h⟩ := ok_of_bind h
  cases h
  obtain ⟨hclean, hcount⟩ := attributes_ok hattrs
  rw [requireObject_ok hrecord] at hvalue
  refine ⟨⟨unsigned_lt htime, hresource, hscope, hclean, ?_⟩, hcount⟩
  exact OtlpLogRecord.data_storable _ (anyValue_storable hbody)
    (fun _ hn => unsigned_lt (ifPresent_ok hobserved hn))
    (fun _ hn => severity_bound (ifPresent_ok hseverity hn))
    (fun _ hn => flags_storable hvalue hflags hn)

/-- The numbers of a point can be kept. -/
structure OtlpPoint.Sound (rt : Runtime) (p : OtlpPoint) : Prop where
  time : p.timeUnixNano < 2 ^ 64
  attributes : Storable rt p.attributes.clean.json
  fields : ∀ f ∈ p.fields, ∀ w, f.2 = some w → Storable rt w.val

theorem pointStart_lt {point : List (PyStr × Json)} {path : PyStr} {time : Nat}
    {s : { s : Option Nat // ∀ t, s = some t → t ≤ time }}
    (h : pointStart point path time = .ok s) {t : Nat} (ht : s.val = some t) : t < 2 ^ 64 := by
  unfold pointStart at h
  split at h
  · cases h
    cases ht
  · obtain ⟨startTime, hstart, h⟩ := ok_of_bind h
    split at h
    · cases h
    · cases h
      cases ht
      exact unsigned_lt hstart

theorem pointNumber_storable {point : List (PyStr × Json)} {path : PyStr} {n : OtlpNumber}
    (h : pointNumber rt point path = .ok n) : Storable rt.toRuntime n.value.val := by
  unfold pointNumber at h
  split at h
  · obtain ⟨f, hf, h⟩ := ok_of_bind h
    cases h
    exact storable_float (number_finite hf)
  · obtain ⟨m, hm, h⟩ := ok_of_bind h
    cases h
    exact storable_sint (signed_bound hm)
  · cases h

theorem numberPoint_sound {value : Json} (hvalue : value.encodable = true) {path : PyStr}
    {p : OtlpPoint} (h : numberPoint rt limits value path = .ok p) :
    p.Sound rt.toRuntime ∧ p.attributes.stripped.length ≤ limits.maxAttributesPerSet := by
  obtain ⟨point, hpoint, h⟩ := ok_of_bind h
  obtain ⟨_, _, h⟩ := ok_of_bind h
  obtain ⟨n, hn, h⟩ := ok_of_bind h
  obtain ⟨attrs, hattrs, h⟩ := ok_of_bind h
  obtain ⟨time, htime, h⟩ := ok_of_bind h
  obtain ⟨startTime, hstart, h⟩ := ok_of_bind h
  obtain ⟨flagged, hflags, h⟩ := ok_of_bind h
  cases h
  obtain ⟨hclean, hcount⟩ := attributes_ok hattrs
  rw [requireObject_ok hpoint] at hvalue
  refine ⟨⟨unsigned_lt htime, hclean, ?_⟩, hcount⟩
  show ∀ f ∈ [_, _, _, _], _
  simp only [List.forall_mem_cons, List.not_mem_nil, false_imp_iff, implies_true, and_true]
  refine ⟨storable_some (pointNumber_storable hn), storable_some (storable_str _),
    storable_map ?_, storable_map ?_⟩
  · intro t ht
    exact storable_uint (pointStart_lt hstart ht)
  · intro f hf
    exact flags_storable hvalue hflags hf

/-- The numbers of a histogram. -/
theorem histogramBuckets_ok {point : List (PyStr × Json)} {path : PyStr} {b : OtlpBuckets}
    (h : histogramBuckets rt limits point path = .ok b) :
    b.count < 2 ^ 64 ∧ (∀ n ∈ b.counts, n < 2 ^ 64) ∧ ∀ f ∈ b.bounds, f.isFinite = true := by
  obtain ⟨countsRaw, _, h⟩ := ok_of_bind h
  obtain ⟨boundsRaw, _, h⟩ := ok_of_bind h
  obtain ⟨counts, hcounts, h⟩ := ok_of_bind h
  obtain ⟨bounds, hbounds, h⟩ := ok_of_bind h
  split at h
  · split at h
    · obtain ⟨count, hcount, h⟩ := ok_of_bind h
      split at h
      · cases h
        exact ⟨unsigned_lt hcount, mapIndexed_forall (fun _ _ _ => unsigned_lt) hcounts,
          mapIndexed_forall (fun _ _ _ => number_finite) hbounds⟩
      · cases h
    · cases h
  · cases h

theorem histogramPoint_sound {value : Json} (hvalue : value.encodable = true) {path : PyStr}
    {p : OtlpPoint} (h : histogramPoint rt limits value path = .ok p) :
    p.Sound rt.toRuntime ∧ p.attributes.stripped.length ≤ limits.maxAttributesPerSet := by
  obtain ⟨point, hpoint, h⟩ := ok_of_bind h
  obtain ⟨_, _, h⟩ := ok_of_bind h
  obtain ⟨buckets, hbuckets, h⟩ := ok_of_bind h
  obtain ⟨attrs, hattrs, h⟩ := ok_of_bind h
  obtain ⟨time, htime, h⟩ := ok_of_bind h
  obtain ⟨startTime, hstart, h⟩ := ok_of_bind h
  obtain ⟨total, htotal, h⟩ := ok_of_bind h
  obtain ⟨least, hleast, h⟩ := ok_of_bind h
  obtain ⟨greatest, hgreatest, h⟩ := ok_of_bind h
  split at h
  · cases h
  · obtain ⟨flagged, hflags, h⟩ := ok_of_bind h
    cases h
    obtain ⟨hclean, hcounted⟩ := attributes_ok hattrs
    obtain ⟨hcount, hcounts, hbounds⟩ := histogramBuckets_ok hbuckets
    rw [requireObject_ok hpoint] at hvalue
    refine ⟨⟨unsigned_lt htime, hclean, ?_⟩, hcounted⟩
    show ∀ f ∈ [_, _, _, _, _, _, _, _], _
    simp only [List.forall_mem_cons, List.not_mem_nil, false_imp_iff, implies_true, and_true]
    refine ⟨storable_some (storable_uint hcount), storable_some (storable_list ?_),
      storable_some (storable_list ?_), storable_map ?_, storable_map ?_, storable_map ?_,
      storable_map ?_, storable_map ?_⟩
    · intro x hx
      rw [List.map_map] at hx
      obtain ⟨n, hn, rfl⟩ := List.mem_map.mp hx
      exact storable_uint (hcounts n hn)
    · intro x hx
      rw [List.map_map] at hx
      obtain ⟨f, hf, rfl⟩ := List.mem_map.mp hx
      exact storable_float (hbounds f hf)
    · intro t ht
      exact storable_uint (pointStart_lt hstart ht)
    · intro f hf
      exact storable_float (number_finite (ifPresent_ok htotal hf))
    · intro f hf
      exact storable_float (number_finite (ifPresent_ok hleast hf))
    · intro f hf
      exact storable_float (number_finite (ifPresent_ok hgreatest hf))
    · intro f hf
      exact flags_storable hvalue hflags hf

theorem parsePoint_sound {kind : MetricKind} {value : Json} (hvalue : value.encodable = true)
    {path : PyStr} {p : OtlpPoint} (h : parsePoint rt limits kind value path = .ok p) :
    p.Sound rt.toRuntime ∧ p.attributes.stripped.length ≤ limits.maxAttributesPerSet := by
  cases kind with
  | gauge => exact numberPoint_sound hvalue h
  | sum => exact numberPoint_sound hvalue h
  | histogram => exact histogramPoint_sound hvalue h

/-- What the points of a metric share can be kept. -/
theorem OtlpMetric.fields_storable (rt : Runtime) (m : OtlpMetric) :
    ∀ f ∈ m.fields, ∀ w, f.2 = some w → Storable rt w.val := by
  show ∀ f ∈ [_, _, _, _, _], _
  simp only [List.forall_mem_cons, List.not_mem_nil, false_imp_iff, implies_true, and_true]
  exact ⟨storable_some (storable_str _), storable_map (fun _ _ => storable_str _),
    storable_map (fun _ _ => storable_str _), storable_map (fun _ _ => storable_str _),
    storable_map (fun _ _ => storable_bool _)⟩

theorem OtlpMetric.data_storable {rt : Runtime} (m : OtlpMetric) {p : OtlpPoint}
    (hp : p.Sound rt) : Storable rt (m.data p).json := by
  refine storable_ofPresent ?_ ?_
  · rw [List.map_append]
    show (metricFieldNames ++ p.fieldNames).all isPlainKey = true
    rcases p.fieldNames_cases with hnames | hnames
    · rw [hnames]
      decide +kernel
    · rw [hnames]
      decide +kernel
  · intro f hf
    rcases List.mem_append.mp hf with hf | hf
    · exact m.fields_storable _ f hf
    · exact hp.fields f hf

/-- A data point, read from an encodable value. -/
theorem pointRecord_sound {metric : OtlpMetric} {value : Json} (hvalue : value.encodable = true)
    {path : PyStr} {resource' scope' : JsonDict} {made : OtlpRecord × List PyStr}
    (hresource : Storable rt.toRuntime resource'.json) (hscope : Storable rt.toRuntime scope'.json)
    (h : pointRecord rt limits metric value path resource' scope' = .ok made) :
    made.1.Sound rt.toRuntime ∧ made.2.length ≤ limits.maxAttributesPerSet := by
  obtain ⟨point, hpoint, h⟩ := ok_of_bind h
  cases h
  obtain ⟨hsound, hcount⟩ := parsePoint_sound hvalue hpoint
  exact ⟨⟨hsound.time, hresource, hscope, hsound.attributes, metric.data_storable hsound⟩, hcount⟩

/-! ## §4. A whole document. -/

theorem Json.Hereditary.items {p : Json → Prop} (hp : Json.Hereditary p) {v : Json} (h : p v) :
    ∀ x ∈ v.items, p x := by
  cases v with
  | list items => exact fun x hx => hp.item h hx
  | _ =>
    intro x hx
    cases hx

theorem Json.Hereditary.at {p : Json → Prop} (hp : Json.Hereditary p) {v : Json} (h : p v)
    (name : PyStr) : p (v.field name) := by
  cases v with
  | dict fields => exact hp.get h name
  | _ => exact hp.null

/-- What a value hands down reaches its leaves. -/
theorem leaves_hereditary {p : Json → Prop} (hp : Json.Hereditary p) (signal : OtlpSignal)
    {value : Json} (h : p value) :
    ∀ leaf ∈ leavesOf signal value, p leaf.item ∧ p leaf.point := by
  intro leaf hleaf
  obtain ⟨group, hgroup, hleaf⟩ := List.mem_flatMap.mp hleaf
  obtain ⟨scope, hscope, hleaf⟩ := List.mem_flatMap.mp hleaf
  obtain ⟨item, hitem, hleaf⟩ := List.mem_flatMap.mp hleaf
  obtain ⟨point, hpoint, rfl⟩ := List.mem_map.mp hleaf
  have hg := hp.items h group hgroup
  have hs := hp.items (hp.at hg _) scope hscope
  have hi := hp.items (hp.at hs _) item hitem
  refine ⟨hi, ?_⟩
  cases signal with
  | traces =>
    rw [List.mem_singleton.mp hpoint]
    exact hi
  | logs =>
    rw [List.mem_singleton.mp hpoint]
    exact hi
  | metrics =>
    obtain ⟨kind, _, hpoint⟩ := List.mem_flatMap.mp hpoint
    exact hp.items (hp.at (hp.at hi _) _) point hpoint

/-- **The record of a leaf is sound.** -/
theorem MadeOf.sound {signal : OtlpSignal} {leaf : OtlpLeaf} {record : OtlpRecord}
    (h : MadeOf rt limits signal leaf record) (hitem : leaf.item.encodable = true)
    (hpoint : leaf.point.encodable = true) : record.Sound rt.toRuntime := by
  obtain ⟨_, _, _, _, resource', scope', stripped, hresource, hscope, hrecord⟩ := h
  have hr := (resource_ok hresource).1
  have hs := (scope_ok hscope).1
  cases signal with
  | traces => exact (parseSpan_sound hr hs hrecord).1
  | logs => exact (parseLogRecord_sound hitem hr hs hrecord).1
  | metrics =>
    obtain ⟨metric, _, hrecord⟩ := ok_of_bind hrecord
    exact (pointRecord_sound hpoint hr hs hrecord).1

/-- Every record of an encodable document is sound. -/
theorem parseGroups_sound {signal : OtlpSignal} {value : Json} (hvalue : value.encodable = true)
    {b : Buffers} (h : parseGroups rt limits signal value = .ok b) :
    ∀ r ∈ b.records, r.Sound rt.toRuntime := by
  intro r hr
  obtain ⟨leaf, hleaf, hmade⟩ := exists_of_forall₂_left (parseGroups_made h).flip hr
  obtain ⟨hitem, hpoint⟩ := leaves_hereditary Json.hereditary_encodable signal hvalue leaf hleaf
  exact MadeOf.sound hmade hitem hpoint

/-! The paths that are stripped: 256 for each record, resource and scope at most. -/

/-- What is stripped beyond the share of the records. -/
def OtlpJsonIngestor.Buffers.excess (b : Buffers) : Int :=
  b.stripped.length - 256 * b.records.length

theorem append_excess {b b' : Buffers} {made : OtlpRecord × List PyStr} {path : PyStr}
    (hmade : made.2.length ≤ limits.maxAttributesPerSet)
    (h : append limits b made path = .ok b') : b'.excess ≤ b.excess := by
  have hmax := limits.attributes_range.2
  unfold append at h
  split at h
  · cases h
  · cases h
    simp only [Buffers.excess, List.length_append, List.length_singleton]
    omega

theorem strip_excess {b : Buffers} {paths : List PyStr}
    (h : paths.length ≤ limits.maxAttributesPerSet) : (b.strip paths).excess ≤ b.excess + 256 := by
  have hmax := limits.attributes_range.2
  simp only [Buffers.excess, Buffers.strip, List.length_append]
  omega

theorem parseItem_excess {signal : OtlpSignal} {value : Json} (hvalue : value.encodable = true)
    {path : PyStr} {resource' scope' : JsonDict} (hresource : Storable rt.toRuntime resource'.json)
    (hscope : Storable rt.toRuntime scope'.json) {b b' : Buffers}
    (h : parseItem rt limits signal value path resource' scope' b = .ok b') :
    b'.excess ≤ b.excess := by
  cases signal with
  | traces =>
    obtain ⟨made, hmade, h⟩ := ok_of_bind h
    exact append_excess (parseSpan_sound hresource hscope hmade).2 h
  | logs =>
    obtain ⟨made, hmade, h⟩ := ok_of_bind h
    exact append_excess (parseLogRecord_sound hvalue hresource hscope hmade).2 h
  | metrics =>
    obtain ⟨metric, hmetric, h⟩ := ok_of_bind h
    have hpoints : ∀ point ∈ metric.points, point.encodable = true := by
      intro point hpoint
      rw [← parseMetricHeader_ok hmetric] at hpoint
      obtain ⟨kind, _, hpoint⟩ := List.mem_flatMap.mp hpoint
      have hp := Json.hereditary_encodable
      exact hp.items (hp.at (hp.at hvalue _) _) point hpoint
    -- each point brings a record, whose share covers what it strips
    have htotal := eachFrom_measure (m := Buffers.excess) (c := 0)
      (fun i s s' point hpoint hround => by
        obtain ⟨made, hmade, hround⟩ := ok_of_bind hround
        have hle := append_excess
          (pointRecord_sound (hpoints point hpoint) hresource hscope hmade).2 hround
        omega) h
    rw [Int.mul_zero] at htotal
    omega

theorem parseScopeGroup_excess {signal : OtlpSignal} {path : PyStr} {resource' : JsonDict}
    (hresource : Storable rt.toRuntime resource'.json) {raw : Json} (hraw : raw.encodable = true)
    {b b' : Buffers} (h : parseScopeGroup rt limits signal path resource' raw b = .ok b') :
    b'.excess ≤ b.excess + 256 := by
  obtain ⟨group, hgroup, h⟩ := ok_of_bind h
  obtain ⟨_, _, h⟩ := ok_of_bind h
  obtain ⟨scope', hscope, h⟩ := ok_of_bind h
  obtain ⟨_, _, h⟩ := ok_of_bind h
  obtain ⟨items, hitems, h⟩ := ok_of_bind h
  rw [requireObject_ok hgroup] at hraw
  have hlist := Json.hereditary_encodable.get hraw signal.items
  rw [(requireList_ok hitems).1] at hlist
  obtain ⟨hkept, hcount⟩ := scope_ok hscope
  -- 256 for the scope itself, none for its items
  have hstart := strip_excess (b := b) hcount
  have htotal := eachFrom_measure (m := Buffers.excess) (c := 0) (fun i s s' item hitem hround => by
    have hle := parseItem_excess (Json.hereditary_encodable.item hlist hitem) hresource hkept hround
    omega) h
  rw [Int.mul_zero] at htotal
  omega

theorem parseGroup_excess {signal : OtlpSignal} {path : PyStr} {raw : Json}
    (hraw : raw.encodable = true) {b b' : Buffers}
    (h : parseGroup rt limits signal path raw b = .ok b') : b'.excess ≤ b.excess + 65792 := by
  obtain ⟨group, hgroup, h⟩ := ok_of_bind h
  obtain ⟨_, _, h⟩ := ok_of_bind h
  obtain ⟨resource', hresource, h⟩ := ok_of_bind h
  obtain ⟨_, _, h⟩ := ok_of_bind h
  obtain ⟨scopes, hscopes, h⟩ := ok_of_bind h
  rw [requireObject_ok hgroup] at hraw
  have hlist := Json.hereditary_encodable.get hraw signal.scopes
  rw [(requireList_ok hscopes).1] at hlist
  obtain ⟨hkept, hcount⟩ := resource_ok hresource
  -- 256 for the resource, and 256 for each of at most 256 scopes
  have hstart := strip_excess (b := b) hcount
  have htotal := eachFrom_measure (m := Buffers.excess) (c := 256)
    (fun i s s' scope hscope hround =>
      parseScopeGroup_excess hkept (Json.hereditary_encodable.item hlist hscope) hround) h
  have hlength := (requireList_ok hscopes).2
  have hmax := limits.scopes_range.2
  omega

/-- **The paths that are stripped can be counted** in an integer of 64 bits. -/
theorem parseGroups_stripped {signal : OtlpSignal} {value : Json} (hvalue : value.encodable = true)
    {b : Buffers} (h : parseGroups rt limits signal value = .ok b) :
    b.stripped.length < 2 ^ 64 := by
  have hrecords := parseGroups_bound h
  obtain ⟨groups, hgroups, h⟩ := ok_of_bind h
  rw [(requireList_ok hgroups).1] at hvalue
  have htotal := eachFrom_measure (m := Buffers.excess) (c := 65792)
    (fun i s s' group hgroup hround =>
      parseGroup_excess (Json.hereditary_encodable.item hvalue hgroup) hround) h
  have hlength := (requireList_ok hgroups).2
  have hresources := limits.resources_range.2
  have hlimit := limits.records_range.2
  simp only [Buffers.excess, List.length_nil] at htotal
  omega

/-! ## §5. A batch. -/

/-- The receipt of an export is admitted. -/
theorem otlpReceipt_admitted (scope : Scope) (signal : OtlpSignal) {recordCount strippedCount : Nat}
    (hrecords : recordCount < 2 ^ 64) (hstripped : strippedCount < 2 ^ 64)
    (payloadSha256 keySha256 : PyStr) (evidenceRefs : List PyStr) :
    ∃ receipt, ReceiptDraft.new rt.toRuntime (py "ingest.otlp.accepted") (py "telemetry_signal")
      signal.value (otlpPayload scope signal recordCount payloadSha256 keySha256 strippedCount)
      .reported evidenceRefs = .ok receipt ∧ receipt.truthLabel = .reported := by
  have hpayload : Storable rt.toRuntime
      (otlpPayload scope signal recordCount payloadSha256 keySha256 strippedCount).json := by
    refine storable_ofPresent (by simp only [List.map_cons, List.map_nil]; decide +kernel) ?_
    simp only [List.forall_mem_cons, List.not_mem_nil, false_imp_iff, implies_true, and_true]
    exact ⟨storable_some (storable_str _), storable_some (storable_str _),
      storable_some (storable_str _), storable_some (storable_uint hrecords),
      storable_some (storable_str _), storable_some (storable_str _),
      storable_some (storable_uint hstripped), storable_some (storable_str _)⟩
  have hnames : strip signal.value = signal.value ∧ signal.value ≠ [] ∧
      signal.value.length ≤ 256 := by
    cases signal with
    | traces => decide +kernel
    | metrics => decide +kernel
    | logs => decide +kernel
  exact ⟨_, ReceiptDraft.new_storable .reported evidenceRefs (by decide +kernel) (by decide +kernel)
    hnames.1 hnames.2.1 hnames.2.2 hpayload, rfl⟩

/-- A batch as a dict: it can be kept. -/
theorem toDict_storable {batch : OtlpIngestBatch}
    (hkey : isIdempotencyKey batch.idempotency.key = true)
    (hrecords : ∀ r ∈ batch.records, r.Sound rt.toRuntime) (hcount : batch.records.length < 2 ^ 64)
    (hstripped : batch.strippedAttributeKeys.length < 2 ^ 64) :
    ∃ fields, batch.toDict rt.toRuntime = .ok fields ∧ Storable rt.toRuntime fields.json := by
  obtain ⟨keySha256, hdigest⟩ := sha256Text_ascii rt.toRuntime (isAscii_safe hkey)
  unfold OtlpIngestBatch.toDict IdempotencyClaim.toDict
  rw [hdigest]
  refine ⟨_, rfl, storable_ofPresent
    (by simp only [List.map_cons, List.map_nil]; decide +kernel) ?_⟩
  simp only [List.forall_mem_cons, List.not_mem_nil, false_imp_iff, implies_true, and_true]
  have hidempotency : Storable rt.toRuntime (JsonDict.ofPresent [
      (py "key_sha256", some (.str keySha256)),
      (py "payload_sha256", some (.str batch.idempotency.payloadSha256))] (by
        simp only [List.map_cons, List.map_nil]
        decide +kernel)).json := by
    refine storable_ofPresent (by simp only [List.map_cons, List.map_nil]; decide +kernel) ?_
    simp only [List.forall_mem_cons, List.not_mem_nil, false_imp_iff, implies_true, and_true]
    exact ⟨storable_some (storable_str _), storable_some (storable_str _)⟩
  refine ⟨storable_some (storable_str _), storable_some (storable_str _),
    storable_some (storable_str _), storable_some (storable_str _),
    storable_some (storable_uint hcount), storable_some (storable_uint hstripped),
    storable_some hidempotency, storable_some (storable_list ?_)⟩
  intro x hx
  rw [List.map_map] at hx
  obtain ⟨r, hr, rfl⟩ := List.mem_map.mp hx
  exact (hrecords r hr).toDict

/-- **What is accepted can be kept.** -/
theorem ingest_storable {body : List UInt8} {scope : Scope} {key : PyStr} {batch : OtlpIngestBatch}
    (h : ingest rt limits body scope key = .ok batch) :
    ∃ fields, batch.toDict rt.toRuntime = .ok fields ∧ Storable rt.toRuntime fields.json := by
  obtain ⟨root, signal, b, hroot, _, hb, haccept⟩ := ingest_ok h
  obtain ⟨_, idempotency, _, _, hidempotency, _, _, rfl⟩ := accept_ok haccept
  obtain ⟨_, _, _, _, hencodable⟩ := strictJsonLoads_iff.mp hroot
  have hvalue := Json.hereditary_encodable.get hencodable signal.resources
  have hrecords := parseGroups_bound hb
  have hstripped := parseGroups_stripped hvalue hb
  have hsorted := length_sortedSet_le b.stripped
  have hlimit := limits.records_range.2
  obtain ⟨rfl, hkey⟩ := IdempotencyClaim.new_ok hidempotency
  refine toDict_storable hkey (parseGroups_sound hvalue hb) ?_ ?_
  · show b.records.length < _
    omega
  · show (sortedSet b.stripped).length < _
    omega

end Sound

end Lyte
