import Lyte.Connectors.OtlpAdmission

/-
  Lyte.Connectors.OtlpFailures — how an export is refused.

  Every check of the ingestor refuses with a PayloadValidationError, but one:
  `float(n)` raises an OverflowError for an int that rounds to 2^1024, and nothing
  catches it.  So an export whose ints have floats is accepted or refused with a
  message, and no other can fail otherwise.
-/

namespace Lyte

open Transact Search OtlpJsonIngestor

/-! ## §1. Ints without a float. -/

namespace Json

mutual
/-- Every int of the value has a float. -/
def fitsFloat : Json → Bool
  | .int n => decide (n.natAbs < floatBound)
  | .list items => fitsFloatItems items
  | .dict fields => fitsFloatFields fields
  | _ => true

def fitsFloatItems : List Json → Bool
  | [] => true
  | x :: xs => x.fitsFloat && fitsFloatItems xs

def fitsFloatFields : List (PyStr × Json) → Bool
  | [] => true
  | (_, v) :: fs => v.fitsFloat && fitsFloatFields fs
end

theorem fitsFloatItems_eq (xs : List Json) : fitsFloatItems xs = xs.all fitsFloat := by
  induction xs with
  | nil => rfl
  | cons x xs ih => rw [fitsFloatItems, ih, List.all_cons]

theorem fitsFloatFields_eq (fs : List (PyStr × Json)) :
    fitsFloatFields fs = fs.all (fun f => f.2.fitsFloat) := by
  induction fs with
  | nil => rfl
  | cons f fs ih => rw [fitsFloatFields, ih, List.all_cons]

/-- What may be raised for the ints of a value, may be for its parts. -/
theorem hereditary_overflows (q : Prop) : Hereditary (fun v => v.fitsFloat = false → q) where
  null h := by cases h
  item {items x} h hx hfalse := by
    refine h ?_
    rw [fitsFloat, fitsFloatItems_eq, List.all_eq_false]
    exact ⟨x, hx, by rw [hfalse]; exact Bool.false_ne_true⟩
  field {fields k v} h hf hfalse := by
    refine h ?_
    rw [fitsFloat, fitsFloatFields_eq, List.all_eq_false]
    exact ⟨(k, v), hf, by rw [hfalse]; exact Bool.false_ne_true⟩

end Json

/-! ## §2. Checks that refuse. -/

theorem unsigned_refuses (value : Json) (path : PyStr) : Refuses (unsigned value path) := by
  unfold unsigned
  split
  · split
    · exact raises_error rfl
    · split
      · exact raises_error rfl
      · exact raises_ok _
  · exact raises_error rfl

theorem signed_refuses (value : Json) (path : PyStr) : Refuses (signed value path) := by
  unfold signed
  split
  · split
    · exact raises_error rfl
    · split
      · exact raises_ok _
      · exact raises_error rfl
  · exact raises_error rfl

theorem hex_refuses (digits : Nat) (value : Json) (path : PyStr) :
    Refuses (hex digits value path) := by
  unfold hex
  split
  · split
    · exact raises_ok _
    · exact raises_error rfl
  · exact raises_error rfl

theorem enum_refuses (choices : List (Int × PyStr)) (absent : Int) (value : Json) (path : PyStr) :
    Refuses (enum choices absent value path) := by
  unfold enum
  split
  · exact raises_ok _
  · split
    · exact raises_ok _
    · exact raises_error rfl
  · split
    · exact raises_ok _
    · exact raises_error rfl
  · exact raises_error rfl

theorem flags_refuses (value : Json) (path : PyStr) : Refuses (flags value path) := by
  unfold flags
  split
  · exact raises_ok _
  · exact raises_error rfl

theorem severity_refuses (value : Json) (path : PyStr) : Refuses (severity value path) := by
  unfold severity
  split
  · split
    · exact raises_ok _
    · exact raises_error rfl
  · exact raises_error rfl

theorem monotonic_refuses (value : Json) (path : PyStr) : Refuses (monotonic value path) := by
  unfold monotonic
  split
  · exact raises_ok _
  · exact raises_error rfl

theorem text_refuses (limits : OtlpLimits) (required : Bool) (value : Json) (path : PyStr) :
    Refuses (text limits required value path) := by
  unfold text
  split
  · split
    · exact raises_error rfl
    · split
      · exact raises_error rfl
      · exact raises_ok _
  · exact raises_error rfl

/-- An optional field raises what its parser raises. -/
theorem ifPresent_raises {α : Type} {P : Exn → Prop} {fields : List (PyStr × Json)}
    {name : PyStr} {parse : Json → Except Exn α} (h : Raises P (parse (Json.get fields name))) :
    Raises P (ifPresent fields name parse) := by
  unfold ifPresent
  unfold Json.get at h
  split
  · exact raises_ok _
  · next value hvalue =>
    rw [hvalue] at h
    exact h.bind (fun _ => raises_ok _)

theorem mapIndexed_raises {α : Type} {P : Exn → Prop} {f : Json → PyStr → Except Exn α}
    {path : PyStr} {items : List Json} (i : Nat) (h : ∀ v ∈ items, ∀ path, Raises P (f v path)) :
    Raises P (mapIndexed f path i items) := by
  induction items generalizing i with
  | nil => exact raises_ok _
  | cons raw rest ih =>
    rw [List.forall_mem_cons] at h
    exact (h.1 _).bind (fun _ => (ih (i + 1) h.2).bind (fun _ => raises_ok _))

section Raised

variable {rt : OtlpRuntime} {limits : OtlpLimits} {P : Exn → Prop}
variable (hP : ∀ e, e.isPayloadValidationError = true → P e)

include hP

/-- What a value may be refused for besides: an int without a float. -/
theorem number_raises {value : Json} (hv : value.fitsFloat = false → P .overflowError)
    (path : PyStr) : Raises P (number rt value path) := by
  have hfinite : ∀ parsed : PyFloat, Raises P (if parsed.isFinite then Except.ok parsed
      else Except.error (refused path " must be finite")) := by
    intro parsed
    split
    · exact raises_ok _
    · exact raises_error (hP _ rfl)
  unfold number
  simp only
  split
  · split
    -- `float(n)` itself raises: no check of the ingestor comes before it
    · next hbig =>
      refine raises_error (hv ?_)
      rw [Json.fitsFloat, decide_eq_false_iff_not, Nat.not_lt]
      exact hbig
    · exact hfinite _
  · exact hfinite _
  · exact raises_error (hP _ rfl)

/-! ## §3. Attributes. -/

theorem anyValue_raises {value : Json} (hv : value.fitsFloat = false → P .overflowError)
    (path : PyStr) : Raises P (anyValue rt limits value path) := by
  refine ((requireObject_refuses value path).imp hP).bind_of_ok (fun item hitem => ?_)
  rw [requireObject_ok hitem] at hv
  refine ((requireFields_refuses _ _ _ _).imp hP).bind (fun _ => ?_)
  split
  · next field _ =>
    -- `stringValue`, `boolValue`, `intValue`, `doubleValue`
    simp only
    split
    · exact ((text_refuses _ _ _ _).imp hP).bind (fun _ => raises_ok _)
    · split
      · split
        · exact raises_ok _
        · exact raises_error (hP _ rfl)
      · split
        · exact ((signed_refuses _ _).imp hP).bind (fun _ => raises_ok _)
        · exact (number_raises hP ((Json.hereditary_overflows _).get hv field) _).bind
            (fun _ => raises_ok _)
  · exact raises_error (hP _ rfl)

theorem attributeItems_raises {path : PyStr} {items : List Json} (i : Nat) (parsed : JsonDict)
    (hv : ∀ x ∈ items, x.fitsFloat = false → P .overflowError) :
    Raises P (attributeItems rt limits path i items parsed) := by
  induction items generalizing i parsed with
  | nil => exact raises_ok _
  | cons raw rest ih =>
    rw [List.forall_mem_cons] at hv
    obtain ⟨hraw, hrest⟩ := hv
    refine ((requireObject_refuses _ _).imp hP).bind_of_ok (fun item hitem => ?_)
    rw [requireObject_ok hitem] at hraw
    refine ((requireFields_refuses _ _ _ _).imp hP).bind (fun _ => ?_)
    refine ((text_refuses _ _ _ _).imp hP).bind (fun key => ?_)
    split
    · exact raises_error (hP _ rfl)
    · refine (anyValue_raises hP ((Json.hereditary_overflows _).get hraw _) _).bind (fun s => ?_)
      exact ih (i + 1) _ hrest

theorem attributes_raises {value : Json} (hv : value.fitsFloat = false → P .overflowError)
    (path : PyStr) : Raises P (attributes rt limits value path) := by
  unfold attributes
  split
  · exact raises_ok _
  · refine ((requireList_refuses _ _ _).imp hP).bind_of_ok (fun items hitems => ?_)
    rw [(requireList_ok hitems).1] at hv
    exact (attributeItems_raises hP 0 _ (fun x hx =>
      (Json.hereditary_overflows _).item hv hx)).bind (fun _ => raises_ok _)

theorem resource_raises {value : Json} (hv : value.fitsFloat = false → P .overflowError)
    (path : PyStr) : Raises P (resource rt limits value path) := by
  unfold resource
  split
  · exact raises_ok _
  · refine ((requireObject_refuses _ _).imp hP).bind_of_ok (fun fields hfields => ?_)
    rw [requireObject_ok hfields] at hv
    refine ((requireFields_refuses _ _ _ _).imp hP).bind (fun _ => ?_)
    exact attributes_raises hP ((Json.hereditary_overflows _).get hv _) _

theorem scope_raises {value : Json} (hv : value.fitsFloat = false → P .overflowError)
    (path : PyStr) : Raises P (scope rt limits value path) := by
  unfold scope
  split
  · exact raises_ok _
  · refine ((requireObject_refuses _ _).imp hP).bind_of_ok (fun fields hfields => ?_)
    rw [requireObject_ok hfields] at hv
    refine ((requireFields_refuses _ _ _ _).imp hP).bind (fun _ => ?_)
    refine (ifPresent_raises ((text_refuses _ _ _ _).imp hP)).bind (fun _ => ?_)
    refine (ifPresent_raises ((text_refuses _ _ _ _).imp hP)).bind (fun _ => ?_)
    exact (attributes_raises hP ((Json.hereditary_overflows _).get hv _) _).bind
      (fun _ => raises_ok _)

/-! ## §4. Spans, points and log records. -/

theorem parentSpan_raises (span : List (PyStr × Json)) (path : PyStr) :
    Raises P (parentSpan span path) := by
  unfold parentSpan
  split
  · exact raises_ok _
  · exact raises_ok _
  · exact ((hex_refuses _ _ _).imp hP).bind (fun _ => raises_ok _)

theorem parseSpan_raises {value : Json} (hv : value.fitsFloat = false → P .overflowError)
    (path : PyStr) (resource' scope' : JsonDict) :
    Raises P (parseSpan rt limits value path resource' scope') := by
  refine ((requireObject_refuses _ _).imp hP).bind_of_ok (fun span hspan => ?_)
  rw [requireObject_ok hspan] at hv
  refine ((requireFields_refuses _ _ _ _).imp hP).bind (fun _ => ?_)
  refine ((hex_refuses _ _ _).imp hP).bind (fun traceId => ?_)
  refine ((hex_refuses _ _ _).imp hP).bind (fun spanId => ?_)
  refine (parentSpan_raises hP _ _).bind (fun parentId => ?_)
  refine ((unsigned_refuses _ _).imp hP).bind (fun startTime => ?_)
  refine ((unsigned_refuses _ _).imp hP).bind (fun endTime => ?_)
  split
  · exact raises_error (hP _ rfl)
  · refine ((requireObject_refuses _ _).imp hP).bind (fun status => ?_)
    refine ((requireFields_refuses _ _ _ _).imp hP).bind (fun _ => ?_)
    refine ((enum_refuses _ _ _ _).imp hP).bind (fun code => ?_)
    refine (ifPresent_raises ((text_refuses _ _ _ _).imp hP)).bind (fun message => ?_)
    refine ((enum_refuses _ _ _ _).imp hP).bind (fun kind => ?_)
    refine (ifPresent_raises ((text_refuses _ _ _ _).imp hP)).bind (fun traceState => ?_)
    refine ((text_refuses _ _ _ _).imp hP).bind (fun name => ?_)
    exact (attributes_raises hP ((Json.hereditary_overflows _).get hv _) _).bind
      (fun _ => raises_ok _)

theorem pointStart_raises (point : List (PyStr × Json)) (path : PyStr) (time : Nat) :
    Raises P (pointStart point path time) := by
  unfold pointStart
  split
  · exact raises_ok _
  · refine ((unsigned_refuses _ _).imp hP).bind (fun startTime => ?_)
    split
    · exact raises_error (hP _ rfl)
    · exact raises_ok _

theorem pointNumber_raises {point : List (PyStr × Json)}
    (hv : (Json.dict point).fitsFloat = false → P .overflowError) (path : PyStr) :
    Raises P (pointNumber rt point path) := by
  unfold pointNumber
  split
  · next value hvalue _ =>
    exact (number_raises hP ((Json.hereditary_overflows _).field hv (mem_of_lookup hvalue)) _).bind
      (fun _ => raises_ok _)
  · exact ((signed_refuses _ _).imp hP).bind (fun _ => raises_ok _)
  · exact raises_error (hP _ rfl)

theorem numberPoint_raises {value : Json} (hv : value.fitsFloat = false → P .overflowError)
    (path : PyStr) : Raises P (numberPoint rt limits value path) := by
  refine ((requireObject_refuses _ _).imp hP).bind_of_ok (fun point hpoint => ?_)
  rw [requireObject_ok hpoint] at hv
  refine ((requireFields_refuses _ _ _ _).imp hP).bind (fun _ => ?_)
  refine (pointNumber_raises hP hv _).bind (fun n => ?_)
  refine (attributes_raises hP ((Json.hereditary_overflows _).get hv _) _).bind (fun attrs => ?_)
  refine ((unsigned_refuses _ _).imp hP).bind (fun time => ?_)
  refine (pointStart_raises hP _ _ _).bind (fun startTime => ?_)
  exact (ifPresent_raises ((flags_refuses _ _).imp hP)).bind (fun _ => raises_ok _)

theorem histogramBuckets_raises {point : List (PyStr × Json)}
    (hv : (Json.dict point).fitsFloat = false → P .overflowError) (path : PyStr) :
    Raises P (histogramBuckets rt limits point path) := by
  have hbounds := (Json.hereditary_overflows _).get hv (py "explicitBounds")
  refine ((requireList_refuses _ _ _).imp hP).bind (fun countsRaw => ?_)
  refine ((requireList_refuses _ _ _).imp hP).bind_of_ok (fun boundsRaw hraw => ?_)
  rw [(requireList_ok hraw).1] at hbounds
  refine (mapIndexed_raises 0 (fun v _ p => (unsigned_refuses v p).imp hP)).bind (fun counts => ?_)
  refine (mapIndexed_raises 0 (fun v hmem p => number_raises hP
    ((Json.hereditary_overflows _).item hbounds hmem) p)).bind (fun bounds => ?_)
  split
  · split
    · refine ((unsigned_refuses _ _).imp hP).bind (fun count => ?_)
      split
      · exact raises_ok _
      · exact raises_error (hP _ rfl)
    · exact raises_error (hP _ rfl)
  · exact raises_error (hP _ rfl)

theorem histogramPoint_raises {value : Json} (hv : value.fitsFloat = false → P .overflowError)
    (path : PyStr) : Raises P (histogramPoint rt limits value path) := by
  refine ((requireObject_refuses _ _).imp hP).bind_of_ok (fun point hpoint => ?_)
  rw [requireObject_ok hpoint] at hv
  have hget := (Json.hereditary_overflows _).get hv
  refine ((requireFields_refuses _ _ _ _).imp hP).bind (fun _ => ?_)
  refine (histogramBuckets_raises hP hv _).bind (fun buckets => ?_)
  refine (attributes_raises hP (hget _) _).bind (fun attrs => ?_)
  refine ((unsigned_refuses _ _).imp hP).bind (fun time => ?_)
  refine (pointStart_raises hP _ _ _).bind (fun startTime => ?_)
  refine (ifPresent_raises (number_raises hP (hget _) _)).bind (fun total => ?_)
  refine (ifPresent_raises (number_raises hP (hget _) _)).bind (fun least => ?_)
  refine (ifPresent_raises (number_raises hP (hget _) _)).bind (fun greatest => ?_)
  split
  · exact raises_error (hP _ rfl)
  · exact (ifPresent_raises ((flags_refuses _ _).imp hP)).bind (fun _ => raises_ok _)

theorem pointRecord_raises {metric : OtlpMetric} {value : Json}
    (hv : value.fitsFloat = false → P .overflowError) (path : PyStr)
    (resource' scope' : JsonDict) :
    Raises P (pointRecord rt limits metric value path resource' scope') := by
  have hpoint : Raises P (parsePoint rt limits metric.kind value path) := by
    cases metric.kind with
    | gauge => exact numberPoint_raises hP hv path
    | sum => exact numberPoint_raises hP hv path
    | histogram => exact histogramPoint_raises hP hv path
  exact hpoint.bind (fun _ => raises_ok _)

theorem parseMetricHeader_raises (value : Json) (path : PyStr) :
    Raises P (parseMetricHeader limits value path) := by
  refine ((requireObject_refuses _ _).imp hP).bind (fun metric => ?_)
  refine ((requireFields_refuses _ _ _ _).imp hP).bind (fun _ => ?_)
  split
  · next kind _ =>
    refine ((text_refuses _ _ _ _).imp hP).bind (fun name => ?_)
    refine (ifPresent_raises ((text_refuses _ _ _ _).imp hP)).bind (fun description => ?_)
    refine (ifPresent_raises ((text_refuses _ _ _ _).imp hP)).bind (fun unit => ?_)
    refine ((requireObject_refuses _ _).imp hP).bind (fun body => ?_)
    refine ((requireFields_refuses _ _ _ _).imp hP).bind (fun _ => ?_)
    have htemporality : ∀ p, Raises P (temporalityOf kind body p) := by
      intro p
      cases kind with
      | gauge => exact raises_ok _
      | sum => exact ((enum_refuses _ _ _ _).imp hP).bind (fun _ => raises_ok _)
      | histogram => exact ((enum_refuses _ _ _ _).imp hP).bind (fun _ => raises_ok _)
    have hmonotonic : ∀ p, Raises P (monotonicOf kind body p) := by
      intro p
      cases kind with
      | gauge => exact raises_ok _
      | sum => exact ((monotonic_refuses _ _).imp hP).bind (fun _ => raises_ok _)
      | histogram => exact raises_ok _
    refine (htemporality _).bind (fun temporality => ?_)
    refine (hmonotonic _).bind (fun isMonotonic => ?_)
    exact ((requireList_refuses _ _ _).imp hP).bind (fun _ => raises_ok _)
  · exact raises_error (hP _ rfl)

theorem logSpan_raises (record : List (PyStr × Json)) (path : PyStr) :
    Raises P (logSpan record path) := by
  refine ifPresent_raises ?_
  split
  · exact raises_error (hP _ rfl)
  · exact (hex_refuses _ _ _).imp hP

theorem parseLogRecord_raises {value : Json} (hv : value.fitsFloat = false → P .overflowError)
    (path : PyStr) (resource' scope' : JsonDict) :
    Raises P (parseLogRecord rt limits value path resource' scope') := by
  refine ((requireObject_refuses _ _).imp hP).bind_of_ok (fun record hrecord => ?_)
  rw [requireObject_ok hrecord] at hv
  have hget := (Json.hereditary_overflows _).get hv
  refine ((requireFields_refuses _ _ _ _).imp hP).bind (fun _ => ?_)
  refine ((unsigned_refuses _ _).imp hP).bind (fun timestamp => ?_)
  refine (anyValue_raises hP (hget _) _).bind (fun body => ?_)
  refine (ifPresent_raises ((unsigned_refuses _ _).imp hP)).bind (fun observedTime => ?_)
  refine (ifPresent_raises ((severity_refuses _ _).imp hP)).bind (fun severityNumber => ?_)
  refine (ifPresent_raises ((text_refuses _ _ _ _).imp hP)).bind (fun severityText => ?_)
  refine (ifPresent_raises ((flags_refuses _ _).imp hP)).bind (fun flagged => ?_)
  refine (ifPresent_raises ((hex_refuses _ _ _).imp hP)).bind (fun traceId => ?_)
  refine (logSpan_raises hP _ _).bind (fun spanId => ?_)
  exact (attributes_raises hP (hget _) _).bind (fun _ => raises_ok _)

/-! ## §5. The walk. -/

theorem append_raises (b : Buffers) (made : OtlpRecord × List PyStr) (path : PyStr) :
    Raises P (append limits b made path) := by
  unfold append
  split
  · exact raises_error (hP _ rfl)
  · exact raises_ok _

theorem parseItem_raises {signal : OtlpSignal} {value : Json}
    (hv : value.fitsFloat = false → P .overflowError) (path : PyStr)
    (resource' scope' : JsonDict) (b : Buffers) :
    Raises P (parseItem rt limits signal value path resource' scope' b) := by
  cases signal with
  | traces => exact (parseSpan_raises hP hv _ _ _).bind (fun _ => append_raises hP _ _ _)
  | logs => exact (parseLogRecord_raises hP hv _ _ _).bind (fun _ => append_raises hP _ _ _)
  | metrics =>
    refine (parseMetricHeader_raises hP _ _).bind_of_ok (fun metric hmetric => ?_)
    intro e he
    refine raises_eachFrom (fun i s point hpoint e hround => ?_) he
    -- a point is a part of the value
    have hp := Json.hereditary_overflows (P .overflowError)
    rw [← parseMetricHeader_ok hmetric] at hpoint
    obtain ⟨kind, _, hpoint⟩ := List.mem_flatMap.mp hpoint
    have hv' := hp.items (hp.at (hp.at hv _) _) point hpoint
    exact ((pointRecord_raises hP hv' _ _ _).bind (fun _ => append_raises hP _ _ _)) e hround

theorem parseScopeGroup_raises {signal : OtlpSignal} {raw : Json}
    (hv : raw.fitsFloat = false → P .overflowError) (path : PyStr) (resource' : JsonDict)
    (b : Buffers) : Raises P (parseScopeGroup rt limits signal path resource' raw b) := by
  refine ((requireObject_refuses _ _).imp hP).bind_of_ok (fun group hgroup => ?_)
  rw [requireObject_ok hgroup] at hv
  have hget := (Json.hereditary_overflows _).get hv
  refine ((requireFields_refuses _ _ _ _).imp hP).bind (fun _ => ?_)
  refine (scope_raises hP (hget _) _).bind (fun scope' => ?_)
  refine (ifPresent_raises ((text_refuses _ _ _ _).imp hP)).bind (fun _ => ?_)
  refine ((requireList_refuses _ _ _).imp hP).bind_of_ok (fun items hitems => ?_)
  have hlist := hget signal.items
  rw [(requireList_ok hitems).1] at hlist
  intro e he
  refine raises_eachFrom (fun i s item hitem e hround => ?_) he
  exact parseItem_raises hP ((Json.hereditary_overflows _).item hlist hitem) _ _ _ _ e hround

theorem parseGroup_raises {signal : OtlpSignal} {raw : Json}
    (hv : raw.fitsFloat = false → P .overflowError) (path : PyStr) (b : Buffers) :
    Raises P (parseGroup rt limits signal path raw b) := by
  refine ((requireObject_refuses _ _).imp hP).bind_of_ok (fun group hgroup => ?_)
  rw [requireObject_ok hgroup] at hv
  have hget := (Json.hereditary_overflows _).get hv
  refine ((requireFields_refuses _ _ _ _).imp hP).bind (fun _ => ?_)
  refine (resource_raises hP (hget _) _).bind (fun resource' => ?_)
  refine (ifPresent_raises ((text_refuses _ _ _ _).imp hP)).bind (fun _ => ?_)
  refine ((requireList_refuses _ _ _).imp hP).bind_of_ok (fun scopes hscopes => ?_)
  have hlist := hget signal.scopes
  rw [(requireList_ok hscopes).1] at hlist
  intro e he
  refine raises_eachFrom (fun i s scope hscope e hround => ?_) he
  exact parseScopeGroup_raises hP ((Json.hereditary_overflows _).item hlist hscope) _ _ _ e hround

theorem parseGroups_raises {signal : OtlpSignal} {value : Json}
    (hv : value.fitsFloat = false → P .overflowError) :
    Raises P (parseGroups rt limits signal value) := by
  refine ((requireList_refuses _ _ _).imp hP).bind_of_ok (fun groups hgroups => ?_)
  rw [(requireList_ok hgroups).1] at hv
  intro e he
  refine raises_eachFrom (fun i s group hgroup e hround => ?_) he
  exact parseGroup_raises hP ((Json.hereditary_overflows _).item hv hgroup) _ _ e hround

end Raised

/-! ## §6. An export. -/

theorem signalOf_refuses (root : List (PyStr × Json)) : Refuses (signalOf root) := by
  unfold signalOf
  simp only
  split
  · split
    · exact raises_error rfl
    · exact raises_error rfl
  · split
    · exact raises_ok _
    · split
      · exact raises_ok _
      · exact raises_ok _

/-- A batch is refused for being empty or for its key: its receipt never is. -/
theorem accept_refuses {rt : OtlpRuntime} (scope : Scope) (key : PyStr) (body : List UInt8)
    (signal : OtlpSignal) {b : Buffers} (hrecords : b.records.length < 2 ^ 64)
    (hstripped : b.stripped.length < 2 ^ 64) : Refuses (accept rt scope key body signal b) := by
  unfold accept
  refine raises_guard rfl ?_
  refine (IdempotencyClaim.new_refuses _ _).bind_of_ok (fun idempotency hidempotency => ?_)
  obtain ⟨_, hkey⟩ := IdempotencyClaim.new_ok hidempotency
  obtain ⟨keySha256, hdigest⟩ := sha256Text_ascii rt.toRuntime (isAscii_safe hkey)
  have hdefined : Refuses (sha256Text rt.toRuntime key) := by
    rw [hdigest]
    exact raises_ok _
  have hsorted := length_sortedSet_le b.stripped
  refine hdefined.bind (fun digest => ?_)
  obtain ⟨receipt, hreceipt, _⟩ := otlpReceipt_admitted scope signal hrecords
    (show (sortedSet b.stripped).length < 2 ^ 64 by omega) (rt.sha256 body) digest
    [py "otlp:" ++ signal.value ++ py ":" ++ rt.sha256 body]
  refine Raises.bind (fun e he => ?_) (fun _ => raises_ok _)
  rw [hreceipt] at he
  cases he

/-- **An export is refused with a PayloadValidationError**, or it holds an int that has no
float. -/
theorem otlp_refusals (rt : OtlpRuntime) (limits : OtlpLimits) (body : List UInt8) (scope : Scope)
    (key : PyStr) (e : Exn) (h : ingest rt limits body scope key = .error e) :
    e.isPayloadValidationError = true ∨ (e = .overflowError ∧ ∃ root,
      strictJsonLoads rt.toInterpreter body limits.maxBodyBytes (py "otlp") = .ok root ∧
      root.fitsFloat = false) := by
  -- the steps of `_ingest_locked`, one after the other
  revert e
  show Raises _ (ingest rt limits body scope key)
  refine ((strictJsonLoads_refuses _ _ _ _).imp fun e he => .inl he).bind_of_ok
    (fun decoded hdecoded => ?_)
  refine ((requireObject_refuses _ _).imp fun e he => .inl he).bind_of_ok (fun root hroot => ?_)
  rw [requireObject_ok hroot] at hdecoded
  obtain ⟨_, _, _, _, hencodable⟩ := strictJsonLoads_iff.mp hdecoded
  refine ((signalOf_refuses root).imp fun e he => .inl he).bind (fun signal => ?_)
  rw [parseSignal_eq]
  refine (parseGroups_raises (fun e he => .inl he) ?_).bind_of_ok (fun b hb => ?_)
  · -- an int without a float is one of the whole document
    exact (Json.hereditary_overflows _).get (fun hbig => .inr ⟨rfl, _, hdecoded, hbig⟩) _
  · have hrecords := parseGroups_bound hb
    have hlimit := limits.records_range.2
    refine (accept_refuses scope key body signal (by omega) ?_).imp fun e he => .inl he
    exact parseGroups_stripped (Json.hereditary_encodable.get hencodable _) hb

/-- A log record whose body is the int 2e308. -/
def bigDocument : List UInt8 := exportBody
  (py "\x7b\"timeUnixNano\":" ++ py "\"1\",\"body\":" ++ py "\x7b\"doubleValue\":" ++
    50 :: List.replicate 308 48 ++ py "\x7d\x7d")

theorem otlp_refusals_sample :
    ingest .integers .default bigDocument logScope logKey = .error .overflowError ∧ ∃ root,
      strictJsonLoads OtlpRuntime.integers.toInterpreter bigDocument
        OtlpLimits.default.maxBodyBytes (py "otlp") = .ok root ∧ root.fitsFloat = false := by
  have hraised : (match ingest .integers .default bigDocument logScope logKey with
      | .error e => decide (e = .overflowError)
      | .ok _ => false) = true := by decide +kernel
  cases h : ingest .integers .default bigDocument logScope logKey with
  | ok batch =>
    rw [h] at hraised
    cases hraised
  | error e =>
    rw [h] at hraised
    obtain rfl := of_decide_eq_true hraised
    refine ⟨rfl, ?_⟩
    rcases otlp_refusals .integers .default bigDocument logScope logKey _ h with hpayload | hbig
    · cases hpayload
    · exact hbig.2

end Lyte
