import Lyte.Connectors.OtlpHttp
import Lyte.Connectors.StrictJson

/-
  Lyte.Connectors.OtlpRecords — what an accepted export becomes.

  `leavesOf` lists the spans, the data points or the log records of a document, in
  its order and without reading them.  The walk of the ingestor, with its buffers
  and its limits, makes one record of each of them and no other:

      parseGroups_made   the records are made of the leaves, one by one, each from
                         its own resource and scope;
      parseGroups_bound  there are at most as many as the limit says;
      otlp_keeps_every_record
                         an accepted export is kept whole.
-/

namespace Lyte

open Transact Search OtlpJsonIngestor

/-! ## §1. The leaves of a document. -/

/-- The items of a list; other values have none. -/
def Json.items : Json → List Json
  | .list items => items
  | _ => []

/-- `d.get(name)`, on whatever value. -/
def Json.field (name : PyStr) : Json → Json
  | .dict fields => Json.get fields name
  | _ => .null

/-- The kinds that a metric has, on whatever value. -/
def metricKinds : Json → List MetricKind
  | .dict fields => kindsOf fields
  | _ => []

/-- A span, a log record, or a metric with one of its points; with the resource and the scope
around it. -/
structure OtlpLeaf where
  resource : Json
  scope : Json
  item : Json
  point : Json

/-- What records are made of in one item of a scope. -/
def pointsOf (signal : OtlpSignal) (item : Json) : List Json :=
  match signal with
  | .metrics => (metricKinds item).flatMap
      (fun kind => ((item.field kind.value).field (py "dataPoints")).items)
  | _ => [item]

/-- The leaves of one scope. -/
def scopeLeaves (signal : OtlpSignal) (resource : Json) (group : Json) : List OtlpLeaf :=
  (group.field signal.items).items.flatMap (fun item =>
    (pointsOf signal item).map (fun point =>
      ⟨resource, group.field (py "scope"), item, point⟩))

/-- The leaves of one resource. -/
def groupLeaves (signal : OtlpSignal) (group : Json) : List OtlpLeaf :=
  (group.field signal.scopes).items.flatMap (scopeLeaves signal (group.field (py "resource")))

/-- The leaves of a container. -/
def leavesOf (signal : OtlpSignal) (value : Json) : List OtlpLeaf :=
  value.items.flatMap (groupLeaves signal)

section Made

variable (rt : OtlpRuntime) (limits : OtlpLimits)

/-- The record that a leaf is read as, and what was stripped from it. -/
def leafRecord (signal : OtlpSignal) (leaf : OtlpLeaf) (metricPath path : PyStr)
    (resource scope : JsonDict) : Except Exn (OtlpRecord × List PyStr) :=
  match signal with
  | .traces => parseSpan rt limits leaf.item path resource scope
  | .logs => parseLogRecord rt limits leaf.item path resource scope
  | .metrics => do
      let metric ← parseMetricHeader limits leaf.item metricPath
      pointRecord rt limits metric leaf.point path resource scope

/-- **A record is made of a leaf**: of its item, its resource and its scope.  The paths that
errors would name are those of the document. -/
def MadeOf (signal : OtlpSignal) (leaf : OtlpLeaf) (record : OtlpRecord) : Prop :=
  ∃ resourcePath scopePath metricPath path, ∃ resource' scope' : Stripped, ∃ stripped,
    resource rt limits leaf.resource resourcePath = .ok resource' ∧
    scope rt limits leaf.scope scopePath = .ok scope' ∧
    leafRecord rt limits signal leaf metricPath path resource'.clean scope'.clean =
      .ok (record, stripped)

variable {rt limits} {signal : OtlpSignal}

theorem requireObject_ok {value : Json} {path : PyStr} {fields : List (PyStr × Json)}
    (h : requireObject value path = .ok fields) : value = .dict fields := by
  unfold requireObject at h
  split at h
  · cases h
    rfl
  · cases h

theorem requireList_ok {value : Json} {path : PyStr} {maximum : Nat} {items : List Json}
    (h : requireList value path maximum = .ok items) :
    value = .list items ∧ items.length ≤ maximum := by
  unfold requireList at h
  split at h
  · split at h
    · cases h
    · next hle =>
      cases h
      exact ⟨rfl, Nat.le_of_not_lt hle⟩
  · cases h

theorem append_ok {b b' : Buffers} {made : OtlpRecord × List PyStr} {path : PyStr}
    (h : append limits b made path = .ok b') :
    b'.records = b.records ++ [made.1] ∧ b'.records.length ≤ limits.maxRecords := by
  unfold append at h
  split at h
  · cases h
  · next hlt =>
    cases h
    refine ⟨rfl, ?_⟩
    rw [List.length_append, List.length_singleton]
    omega

/-! ## §2. The walk, level by level. -/

theorem parseMetricHeader_ok {value : Json} {path : PyStr} {metric : OtlpMetric}
    (h : parseMetricHeader limits value path = .ok metric) :
    pointsOf .metrics value = metric.points := by
  obtain ⟨fields, hfields, h⟩ := ok_of_bind h
  obtain ⟨_, _, h⟩ := ok_of_bind h
  have hvalue := requireObject_ok hfields
  split at h
  · next kind hkind =>
    obtain ⟨name, _, h⟩ := ok_of_bind h
    obtain ⟨description, _, h⟩ := ok_of_bind h
    obtain ⟨unit, _, h⟩ := ok_of_bind h
    obtain ⟨body, hbody, h⟩ := ok_of_bind h
    obtain ⟨_, _, h⟩ := ok_of_bind h
    obtain ⟨temporality, _, h⟩ := ok_of_bind h
    obtain ⟨isMonotonic, _, h⟩ := ok_of_bind h
    obtain ⟨points, hpoints, h⟩ := ok_of_bind h
    cases h
    have hb := requireObject_ok hbody
    obtain ⟨hp, _⟩ := requireList_ok hpoints
    rw [hvalue]
    show (kindsOf fields).flatMap _ = points
    rw [hkind, List.flatMap_singleton]
    show ((Json.get fields kind.value).field (py "dataPoints")).items = points
    rw [hb]
    show (Json.get body (py "dataPoints")).items = points
    rw [hp]
    rfl
  · cases h

/-- What one item adds. -/
theorem parseItem_made {value : Json} {path : PyStr} {resource' scope' : Stripped}
    {resourceValue scopeValue : Json} {resourcePath scopePath : PyStr}
    (hresource : resource rt limits resourceValue resourcePath = .ok resource')
    (hscope : scope rt limits scopeValue scopePath = .ok scope') {b b' : Buffers}
    (h : parseItem rt limits signal value path resource'.clean scope'.clean b = .ok b') :
    ∃ made, b'.records = b.records ++ made ∧
      List.Forall₂ (MadeOf rt limits signal) ((pointsOf signal value).map
        (fun point => ⟨resourceValue, scopeValue, value, point⟩)) made := by
  cases signal with
  | traces =>
    obtain ⟨⟨record, stripped⟩, hspan, h⟩ := ok_of_bind h
    exact ⟨[record], (append_ok h).1,
      .cons ⟨_, _, path, _, _, _, _, hresource, hscope, hspan⟩ .nil⟩
  | logs =>
    obtain ⟨⟨record, stripped⟩, hlog, h⟩ := ok_of_bind h
    exact ⟨[record], (append_ok h).1,
      .cons ⟨_, _, path, _, _, _, _, hresource, hscope, hlog⟩ .nil⟩
  | metrics =>
    obtain ⟨metric, hmetric, h⟩ := ok_of_bind h
    rw [parseMetricHeader_ok hmetric]
    rw [List.map_eq_flatMap]
    have hstep : ∀ i point (s s' : Buffers), (do
          let pointPath := indexed (dotted (dotted path metric.kind.value) (py "dataPoints")) i
          let made ← pointRecord rt limits metric point pointPath resource'.clean scope'.clean
          append limits s made pointPath) = .ok s' →
        ∃ made, s'.records = s.records ++ made ∧ List.Forall₂ (MadeOf rt limits .metrics)
          [⟨resourceValue, scopeValue, value, point⟩] made := by
      intro i point s s' hround
      obtain ⟨⟨record, stripped⟩, hpoint, hround⟩ := ok_of_bind hround
      refine ⟨[record], (append_ok hround).1, .cons ?_ .nil⟩
      refine ⟨resourcePath, scopePath, path,
        indexed (dotted (dotted path metric.kind.value) (py "dataPoints")) i,
        resource', scope', stripped, hresource, hscope, ?_⟩
      unfold leafRecord
      simp only [hmetric, bind, Except.bind]
      exact hpoint
    exact eachFrom_made hstep h

theorem parseScopeGroup_made {path : PyStr} {resource' : Stripped} {resourceValue raw : Json}
    {resourcePath : PyStr}
    (hresource : resource rt limits resourceValue resourcePath = .ok resource') {b b' : Buffers}
    (h : parseScopeGroup rt limits signal path resource'.clean raw b = .ok b') :
    ∃ made, b'.records = b.records ++ made ∧
      List.Forall₂ (MadeOf rt limits signal) (scopeLeaves signal resourceValue raw) made := by
  obtain ⟨group, hgroup, h⟩ := ok_of_bind h
  obtain ⟨_, _, h⟩ := ok_of_bind h
  obtain ⟨scope', hscope, h⟩ := ok_of_bind h
  obtain ⟨_, _, h⟩ := ok_of_bind h
  obtain ⟨items, hitems, h⟩ := ok_of_bind h
  have hraw := requireObject_ok hgroup
  obtain ⟨hlist, _⟩ := requireList_ok hitems
  unfold scopeLeaves
  rw [hraw]
  show ∃ made, b'.records = b.records ++ made ∧ List.Forall₂ _
    ((Json.get group signal.items).items.flatMap _) made
  rw [hlist]
  have hstep : ∀ i item (s s' : Buffers), parseItem rt limits signal item
        (indexed (dotted path signal.items) i) resource'.clean scope'.clean s = .ok s' →
      ∃ made, s'.records = s.records ++ made ∧ List.Forall₂ (MadeOf rt limits signal)
        ((pointsOf signal item).map
          (fun point => ⟨resourceValue, Json.get group (py "scope"), item, point⟩)) made := by
    intro i item s s' hround
    exact parseItem_made hresource hscope hround
  obtain ⟨made, hrecords, hmade⟩ := eachFrom_made hstep h
  exact ⟨made, hrecords, hmade⟩

theorem parseGroup_made {path : PyStr} {raw : Json} {b b' : Buffers}
    (h : parseGroup rt limits signal path raw b = .ok b') :
    ∃ made, b'.records = b.records ++ made ∧
      List.Forall₂ (MadeOf rt limits signal) (groupLeaves signal raw) made := by
  obtain ⟨group, hgroup, h⟩ := ok_of_bind h
  obtain ⟨_, _, h⟩ := ok_of_bind h
  obtain ⟨resource', hresource, h⟩ := ok_of_bind h
  obtain ⟨_, _, h⟩ := ok_of_bind h
  obtain ⟨scopes, hscopes, h⟩ := ok_of_bind h
  have hraw := requireObject_ok hgroup
  obtain ⟨hlist, _⟩ := requireList_ok hscopes
  unfold groupLeaves
  rw [hraw]
  show ∃ made, b'.records = b.records ++ made ∧ List.Forall₂ _
    ((Json.get group signal.scopes).items.flatMap _) made
  rw [hlist]
  have hstep : ∀ i scope (s s' : Buffers), parseScopeGroup rt limits signal
        (indexed (dotted path signal.scopes) i) resource'.clean scope s = .ok s' →
      ∃ made, s'.records = s.records ++ made ∧ List.Forall₂ (MadeOf rt limits signal)
        (scopeLeaves signal (Json.get group (py "resource")) scope) made := by
    intro i scope s s' hround
    exact parseScopeGroup_made hresource hround
  obtain ⟨made, hrecords, hmade⟩ := eachFrom_made hstep h
  exact ⟨made, hrecords, hmade⟩

/-- **One record for each leaf, in the order of the document.** -/
theorem parseGroups_made {value : Json} {b : Buffers}
    (h : parseGroups rt limits signal value = .ok b) :
    List.Forall₂ (MadeOf rt limits signal) (leavesOf signal value) b.records := by
  obtain ⟨groups, hgroups, h⟩ := ok_of_bind h
  obtain ⟨hlist, _⟩ := requireList_ok hgroups
  have hstep : ∀ i group (s s' : Buffers), parseGroup rt limits signal
        (indexed (dotted (py "otlp") signal.resources) i) group s = .ok s' →
      ∃ made, s'.records = s.records ++ made ∧
        List.Forall₂ (MadeOf rt limits signal) (groupLeaves signal group) made := by
    intro i group s s' hround
    exact parseGroup_made hround
  obtain ⟨made, hrecords, hmade⟩ := eachFrom_made hstep h
  unfold leavesOf
  rw [hlist]
  rw [hrecords]
  exact hmade

/-! ## §3. The limit. -/

theorem parseItem_bound {value : Json} {path : PyStr} {resource scope : JsonDict}
    {b b' : Buffers} (hb : b.records.length ≤ limits.maxRecords)
    (h : parseItem rt limits signal value path resource scope b = .ok b') :
    b'.records.length ≤ limits.maxRecords := by
  cases signal with
  | traces =>
    obtain ⟨made, _, h⟩ := ok_of_bind h
    exact (append_ok h).2
  | logs =>
    obtain ⟨made, _, h⟩ := ok_of_bind h
    exact (append_ok h).2
  | metrics =>
    obtain ⟨metric, _, h⟩ := ok_of_bind h
    refine eachFrom_invariant (P := fun b => b.records.length ≤ limits.maxRecords) ?_ hb h
    intro i point s s' _ hround
    obtain ⟨made, _, hround⟩ := ok_of_bind hround
    exact (append_ok hround).2

/-- **The limit is kept.** -/
theorem parseGroups_bound {value : Json} {b : Buffers}
    (h : parseGroups rt limits signal value = .ok b) : b.records.length ≤ limits.maxRecords := by
  obtain ⟨groups, _, h⟩ := ok_of_bind h
  refine eachFrom_invariant (P := fun b => b.records.length ≤ limits.maxRecords) ?_
    (Nat.zero_le _) h
  intro i group s s' hs hround
  obtain ⟨_, _, hround⟩ := ok_of_bind hround
  obtain ⟨_, _, hround⟩ := ok_of_bind hround
  obtain ⟨_, _, hround⟩ := ok_of_bind hround
  obtain ⟨_, _, hround⟩ := ok_of_bind hround
  obtain ⟨_, _, hround⟩ := ok_of_bind hround
  refine eachFrom_invariant (P := fun b => b.records.length ≤ limits.maxRecords) ?_ hs hround
  intro j scope t t' ht hround
  obtain ⟨_, _, hround⟩ := ok_of_bind hround
  obtain ⟨_, _, hround⟩ := ok_of_bind hround
  obtain ⟨_, _, hround⟩ := ok_of_bind hround
  obtain ⟨_, _, hround⟩ := ok_of_bind hround
  obtain ⟨_, _, hround⟩ := ok_of_bind hround
  exact eachFrom_invariant (P := fun b => b.records.length ≤ limits.maxRecords)
    (fun _ _ _ _ hu hround => parseItem_bound hu hround) ht hround

/-! ## §4. An accepted export. -/

theorem signalOf_ok {root : List (PyStr × Json)} {signal : OtlpSignal}
    (h : signalOf root = .ok signal) : root.map Prod.fst = [signal.resources] := by
  unfold signalOf at h
  simp only at h
  by_cases hone : root.length ≠ 1 ∨ (root.map Prod.fst).filter (fun k => !containers.contains k) ≠ []
  · rw [if_pos hone] at h
    split at h
    · cases h
    · cases h
  · rw [if_neg hone] at h
    rw [not_or, not_not, not_not] at hone
    obtain ⟨hlength, hunknown⟩ := hone
    obtain ⟨⟨k, v⟩, rfl⟩ := List.length_eq_one_iff.mp hlength
    have hk : containers.contains k = true := by
      by_contra hk
      rw [List.filter_eq_nil_iff] at hunknown
      exact hunknown k List.mem_cons_self (by simpa using hk)
    have hthree : k = OtlpSignal.traces.resources ∨ k = OtlpSignal.metrics.resources ∨
        k = OtlpSignal.logs.resources := by
      simpa [containers, OtlpSignal.resources] using hk
    rcases hthree with rfl | rfl | rfl
    · obtain rfl : OtlpSignal.traces = signal := Except.ok.inj h
      rfl
    · obtain rfl : OtlpSignal.metrics = signal := Except.ok.inj h
      rfl
    · obtain rfl : OtlpSignal.logs = signal := Except.ok.inj h
      rfl

theorem parseSignal_eq (value : Json) :
    parseSignal rt limits signal value = parseGroups rt limits signal value := by
  cases signal with
  | traces => rfl
  | metrics => rfl
  | logs => rfl

/-- What a batch is made of. -/
theorem accept_ok {scope : Scope} {key : PyStr} {body : List UInt8} {b : Buffers}
    {batch : OtlpIngestBatch} (h : accept rt scope key body signal b = .ok batch) :
    b.records ≠ [] ∧ ∃ idempotency receipt keySha256,
      IdempotencyClaim.new key (rt.sha256 body) = .ok idempotency ∧
      sha256Text rt.toRuntime key = .ok keySha256 ∧
      ReceiptDraft.new rt.toRuntime (py "ingest.otlp.accepted") (py "telemetry_signal")
        signal.value (otlpPayload scope signal b.records.length (rt.sha256 body) keySha256
          (sortedSet b.stripped).length) .reported
        [py "otlp:" ++ signal.value ++ py ":" ++ rt.sha256 body] = .ok receipt ∧
      batch = ⟨scope, signal, b.records, idempotency, receipt, sortedSet b.stripped⟩ := by
  unfold accept at h
  obtain ⟨hne, h⟩ := ok_of_guard h
  obtain ⟨idempotency, hidempotency, h⟩ := ok_of_bind h
  obtain ⟨keySha256, hkey, h⟩ := ok_of_bind h
  obtain ⟨receipt, hreceipt, h⟩ := ok_of_bind h
  cases h
  refine ⟨?_, idempotency, receipt, keySha256, hidempotency, hkey, hreceipt, rfl⟩
  intro hnil
  rw [hnil] at hne
  exact hne rfl

/-- The way of an accepted export. -/
theorem ingest_ok {body : List UInt8} {scope : Scope} {key : PyStr} {batch : OtlpIngestBatch}
    (h : ingest rt limits body scope key = .ok batch) :
    ∃ root signal b,
      strictJsonLoads rt.toInterpreter body limits.maxBodyBytes (py "otlp") = .ok (.dict root) ∧
      signalOf root = .ok signal ∧
      parseGroups rt limits signal (Json.get root signal.resources) = .ok b ∧
      accept rt scope key body signal b = .ok batch := by
  obtain ⟨decoded, hdecoded, h⟩ := ok_of_bind h
  obtain ⟨root, hroot, h⟩ := ok_of_bind h
  obtain ⟨signal, hsignal, h⟩ := ok_of_bind h
  obtain ⟨b, hb, h⟩ := ok_of_bind h
  rw [requireObject_ok hroot] at hdecoded
  rw [parseSignal_eq] at hb
  exact ⟨root, signal, b, hdecoded, hsignal, hb, h⟩

end Made

/-- **An accepted export is kept whole**: its document has one container, and the records of the
batch are made of what that container holds, one of each, in its order; there is at least one,
and no more than the limit. -/
theorem otlp_keeps_every_record (rt : OtlpRuntime) (limits : OtlpLimits) (body : List UInt8)
    (scope : Scope) (key : PyStr) (batch : OtlpIngestBatch)
    (h : ingest rt limits body scope key = .ok batch) :
    ∃ root, strictJsonLoads rt.toInterpreter body limits.maxBodyBytes (py "otlp") =
        .ok (.dict root) ∧
      root.map Prod.fst = [batch.signal.resources] ∧
      List.Forall₂ (MadeOf rt limits batch.signal)
        (leavesOf batch.signal (Json.get root batch.signal.resources)) batch.records ∧
      1 ≤ batch.records.length ∧ batch.records.length ≤ limits.maxRecords := by
  obtain ⟨root, signal, b, hroot, hsignal, hb, haccept⟩ := ingest_ok h
  obtain ⟨hne, _, _, _, _, _, _, rfl⟩ := accept_ok haccept
  exact ⟨root, hroot, signalOf_ok hsignal, parseGroups_made hb,
    List.length_pos_iff.mpr hne, parseGroups_bound hb⟩

/-- A runtime for documents without floats. -/
def OtlpRuntime.integers : OtlpRuntime where
  toInterpreter := integerRuntime
  floatOfInt n := ⟨BitVec.ofNat 64 n.natAbs⟩

/-- The text of an export with some log records. -/
def exportBody (records : PyStr) : List UInt8 :=
  (py "\x7b\"resourceLogs\":" ++ py "[\x7b\"scopeLogs\":" ++ py "[\x7b\"logRecords\":[" ++
    records ++ py "]\x7d]\x7d]\x7d").map Nat.toUInt8

/-- One log record, whose body is the text `a`. -/
def logDocument : List UInt8 := exportBody
  (py "\x7b\"timeUnixNano\":" ++ py "\"1\",\"body\":" ++ py "\x7b\"stringValue\":" ++
    py "\"a\"\x7d\x7d")

def logScope : Scope := ⟨⟨py "tenant"⟩, ⟨py "workspace"⟩⟩
def logKey : PyStr := py "otlp-key" ++ py "-01234567"

theorem logDocument_accepted :
    (ingest .integers .default logDocument logScope logKey).isOk = true := by
  decide +kernel

theorem otlp_keeps_every_record_sample : ∃ batch,
    ingest .integers .default logDocument logScope logKey = .ok batch ∧
    ∃ root, strictJsonLoads OtlpRuntime.integers.toInterpreter logDocument
        OtlpLimits.default.maxBodyBytes (py "otlp") = .ok (.dict root) ∧
      root.map Prod.fst = [batch.signal.resources] ∧
      List.Forall₂ (MadeOf .integers .default batch.signal)
        (leavesOf batch.signal (Json.get root batch.signal.resources)) batch.records ∧
      1 ≤ batch.records.length ∧ batch.records.length ≤ OtlpLimits.default.maxRecords := by
  have hok := logDocument_accepted
  cases h : ingest .integers .default logDocument logScope logKey with
  | error e =>
    rw [h] at hok
    cases hok
  | ok batch => exact ⟨batch, rfl, otlp_keeps_every_record _ _ _ _ _ batch h⟩

end Lyte
