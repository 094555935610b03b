import Lyte.Engine.SessionLedger
import Lyte.Domain.Spellings
import Lyte.Lib.Program

/-
  Lyte.Engine.LedgerHonesty — what the session ledger reports of a run of appends.

  A run of `append` calls inserts the rows of the calls that are accepted, in
  order (`run_eq`), so that the row under a receipt id was made by some call with
  that receipt (`stored`).  What a row takes from the receipt as it is, reads
  report as it was.  One field is not taken as it is: a time of zero is replaced
  by the clock.

      ledger_reports    labels, sources, digests and scopes are always those of
                        the receipts; times, and the order by them, are exactly
                        when no accepted receipt was observed at zero.
-/

namespace Lyte

open Transact KeyedLog

/-! ## §1. What is minted and what is accepted. -/

section Runs

variable (rt : Runtime) (upper : PyStr → PyStr)

/-- The receipt of some observation. -/
def Minted (r : ObservationReceipt) : Prop :=
  ∃ scope kind payload truthLabel sourceUrl observedAt now,
    observationReceipt rt upper scope kind payload truthLabel sourceUrl observedAt now = .ok r

/-- The call does not raise. -/
def Accepted (c : AppendCall) : Prop := ∃ row, appendedRow rt c = .ok row

/-- **A run of appends**: receipts are minted, SHA-256 does not collide on them, and the
clock reads a time after the epoch. -/
structure Observed (calls : List AppendCall) : Prop where
  minted : ∀ c ∈ calls, Minted rt upper c.receipt
  noCollision : ∀ c ∈ calls, ∀ c' ∈ calls, c.receipt.receiptId = c'.receipt.receiptId →
    c.receipt.basis = c'.receipt.basis
  clock : ∀ c ∈ calls, c.observedClock.isFinite = true ∧ c.createdClock.isFinite = true
  afterEpoch : ∀ c ∈ calls, c.observedClock.value ≠ 0

/-! ## §2. What reads report. -/

/-- Reads report the receipts: all but the times. -/
structure KeepsReceipts (engine : Descending Observation.time) (calls : List AppendCall) :
    Prop where
  got : ∀ c ∈ calls, Accepted rt c → ∃ r,
    (SessionLedger.run rt [] calls).get c.scope c.receipt.receiptId = .ok (some r) ∧
    r.receiptId = c.receipt.receiptId ∧ r.truthLabel = c.receipt.truthLabel ∧
    r.sourceUrl = c.receipt.sourceUrl ∧ r.payloadSha256 = c.receipt.payloadSha256
  again : ∀ c ∈ calls, Accepted rt c → ∀ c', c'.receipt = c.receipt →
    (SessionLedger.run rt [] calls).after rt c' = SessionLedger.run rt [] calls
  gotScope : ∀ scope receiptId r,
    (SessionLedger.run rt [] calls).get scope receiptId = .ok (some r) →
    ∃ c ∈ calls, Accepted rt c ∧ c.scope = scope ∧ c.receipt.receiptId = r.receiptId
  recentScope : ∀ scope limit kind records,
    (SessionLedger.run rt [] calls).recent engine scope limit kind = .ok records →
    ∀ r ∈ records, ∃ c ∈ calls, Accepted rt c ∧ c.scope = scope ∧
      c.receipt.receiptId = r.receiptId

/-- A call with the receipt that a record is of, in a scope. -/
structure Reports (calls : List AppendCall) (scope : PyStr) (r : SessionRecord) (c : AppendCall) :
    Prop where
  mem : c ∈ calls
  accepted : Accepted rt c
  scope : c.scope = scope
  receiptId : c.receipt.receiptId = r.receiptId

/-- `records` are the newest receipts of the scope, the newest first. -/
structure Newest (calls : List AppendCall) (scope : PyStr) (limit : Int)
    (records : List SessionRecord) : Prop where
  distinct : (records.map SessionRecord.receiptId).Nodup
  reported : ∀ r ∈ records, ∃ c, Reports rt calls scope r c
  length : ∀ ids : List PyStr, ids.Nodup →
    (∀ id, id ∈ ids ↔ ∃ c ∈ calls, Accepted rt c ∧ c.scope = scope ∧ c.receipt.receiptId = id) →
    records.length = min (max 1 (min limit 100)).toNat ids.length
  descending : records.Pairwise (fun r r' => ∀ c c', Reports rt calls scope r c →
    Reports rt calls scope r' c' → c'.receipt.observedAt.value ≤ c.receipt.observedAt.value)
  greatest : ∀ r ∈ records, ∀ c, Reports rt calls scope r c → ∀ c' ∈ calls, Accepted rt c' →
    c'.scope = scope → c'.receipt.receiptId ∉ records.map SessionRecord.receiptId →
    c'.receipt.observedAt.value ≤ c.receipt.observedAt.value

/-- Reads report the times of the receipts, and are ordered by them. -/
structure KeepsTimes (engine : Descending Observation.time) (calls : List AppendCall) : Prop where
  got : ∀ c ∈ calls, Accepted rt c → ∃ r,
    (SessionLedger.run rt [] calls).get c.scope c.receipt.receiptId = .ok (some r) ∧
    r.observedAt = c.receipt.observedAt
  recent : ∀ scope limit, isSha256Hex scope = true → ∃ records,
    (SessionLedger.run rt [] calls).recent engine scope limit none = .ok records ∧
    Newest rt calls scope limit records

/-! ## §3. Receipts. -/

/-- What minting establishes about the fields of a receipt. -/
structure ObservationReceipt.Sound (r : ObservationReceipt) : Prop where
  label : r.truthLabel ∈ allowedTruth
  source : r.sourceUrl.length ≤ 500
  finite : r.observedAt.isFinite = true

variable {rt : Runtime} {upper : PyStr → PyStr}

theorem basis_finite {r : ObservationReceipt} {id : PyStr} (h : sha256Json rt r.basis = .ok id) :
    r.observedAt.isFinite = true := by
  have henc := encodable_of_sha256Json rt h
  simp only [ObservationReceipt.basis, Json.encodable, Json.encodableFields, Bool.and_eq_true]
    at henc
  exact henc.2.2.2.2.2.1

theorem Minted.sound {r : ObservationReceipt} (h : Minted rt upper r) : r.Sound := by
  obtain ⟨scope, kind, payload, truthLabel, sourceUrl, observedAt, now, hr⟩ := h
  unfold observationReceipt at hr
  obtain ⟨-, hr⟩ := ok_of_guard hr
  obtain ⟨hlabel, hr⟩ := ok_of_guard hr
  obtain ⟨text, -, hr⟩ := ok_of_bind hr
  obtain ⟨serialized, -, hr⟩ := ok_of_bind hr
  obtain ⟨-, hr⟩ := ok_of_guard hr
  obtain ⟨-, hr⟩ := ok_of_guard hr
  obtain ⟨receiptId, hid, hr⟩ := ok_of_bind hr
  cases hr
  constructor
  · rw [Bool.not_eq_true, Bool.not_eq_false'] at hlabel
    exact List.contains_iff_mem.mp hlabel
  · exact List.length_take_le _ _
  · exact basis_finite hid

/-- A receipt is its basis and its id. -/
theorem receipt_ext {r r' : ObservationReceipt} (hid : r.receiptId = r'.receiptId)
    (hbasis : r.basis = r'.basis) : r = r' := by
  cases r
  cases r'
  simp only [ObservationReceipt.basis, Json.dict.injEq, List.cons.injEq, Prod.mk.injEq,
    Json.str.injEq, Json.float.injEq, true_and, and_true] at hbasis
  simp only [ObservationReceipt.mk.injEq]
  obtain ⟨hkind, hscope, hpayload, hsource, htime, hlabel⟩ := hbasis
  exact ⟨hkind, hscope, hpayload, hsource, htime, hlabel, hid⟩

/-! ## §4. Rows. -/

/-- What a row takes from a call. -/
structure RowOf (c : AppendCall) (row : Observation) : Prop where
  scopeHex : isSha256Hex c.scope = true
  idHex : isSha256Hex c.receipt.receiptId = true
  sameScope : c.receipt.sessionScopeSha256 = c.scope
  receiptId : row.receiptId = c.receipt.receiptId
  scope : row.sessionScopeSha256 = c.scope
  observedAt : row.observedAt =
    if c.receipt.observedAt.eq .zero then c.observedClock else c.receipt.observedAt
  truthLabel : row.truthLabel = orText c.receipt.truthLabel (py "UNAVAILABLE")
  sourceUrl : row.sourceUrl = c.receipt.sourceUrl.take 500
  payload : row.payloadSha256 = c.receipt.payloadSha256
  createdAt : row.createdAt = c.createdClock

theorem appendedRow_ok {c : AppendCall} {row : Observation} (h : appendedRow rt c = .ok row) :
    RowOf c row := by
  unfold appendedRow at h
  obtain ⟨hscope, h⟩ := ok_of_guard h
  obtain ⟨hid, h⟩ := ok_of_guard h
  obtain ⟨hsame, h⟩ := ok_of_guard h
  obtain ⟨_, -, h⟩ := ok_of_bind h
  obtain ⟨encoded, -, h⟩ := ok_of_bind h
  obtain ⟨bytes, -, h⟩ := ok_of_bind h
  obtain ⟨-, h⟩ := ok_of_guard h
  obtain ⟨-, h⟩ := ok_of_guard h
  cases h
  constructor
  · rwa [Bool.not_eq_true, Bool.not_eq_false'] at hscope
  · rwa [Bool.not_eq_true, Bool.not_eq_false'] at hid
  · exact not_not.mp hsame
  all_goals rfl

/-- A row says of a minted receipt what the receipt says. -/
theorem RowOf.receipt {c : AppendCall} {row : Observation} (h : RowOf c row)
    (hs : c.receipt.Sound) : row.truthLabel = c.receipt.truthLabel ∧
    row.sourceUrl = c.receipt.sourceUrl ∧ row.payloadSha256 = c.receipt.payloadSha256 := by
  refine ⟨?_, ?_, h.payload⟩
  · rw [h.truthLabel]
    have hne : ∀ label ∈ allowedTruth, label.isEmpty = false := by decide
    unfold orText
    rw [hne _ hs.label]
    rfl
  · rw [h.sourceUrl, List.take_of_length_le hs.source]

theorem eq_zero_iff {a : PyFloat} (h : a.isFinite = true) : a.eq .zero = true ↔ a.value = 0 := by
  unfold PyFloat.eq
  rw [PyFloat.num_of_finite h, PyFloat.num_of_finite (a := .zero) (by decide), PyFloat.zero_value]
  simp [Num.pyEq]

/-- The time of a row is that of the receipt, unless that is zero. -/
theorem RowOf.time {c : AppendCall} {row : Observation} (h : RowOf c row) (hs : c.receipt.Sound)
    (hne : c.receipt.observedAt.value ≠ 0) : row.observedAt = c.receipt.observedAt := by
  rw [h.observedAt, if_neg]
  intro heq
  exact hne ((eq_zero_iff hs.finite).mp heq)

theorem RowOf.clock {c : AppendCall} {row : Observation} (h : RowOf c row) (hs : c.receipt.Sound)
    (hzero : c.receipt.observedAt.value = 0) : row.observedAt = c.observedClock := by
  rw [h.observedAt, if_pos ((eq_zero_iff hs.finite).mpr hzero)]

theorem RowOf.hasNull {c : AppendCall} {row : Observation} (h : RowOf c row) (hs : c.receipt.Sound)
    (hclock : c.observedClock.isFinite = true ∧ c.createdClock.isFinite = true) :
    row.hasNull = false := by
  have hobserved : row.observedAt.isFinite = true := by
    rw [h.observedAt]
    by_cases hzero : c.receipt.observedAt.eq .zero = true
    · rw [if_pos hzero]
      exact hclock.1
    · rw [if_neg hzero]
      exact hs.finite
  have hcreated : row.createdAt.isFinite = true := by
    rw [h.createdAt]
    exact hclock.2
  unfold Observation.hasNull
  rw [decide_eq_false (PyFloat.num_ne_nan hobserved), decide_eq_false (PyFloat.num_ne_nan hcreated)]
  rfl

/-! ## §5. Runs. -/

/-- The row that a call adds, if it adds one. -/
def addedRow (rt : Runtime) (c : AppendCall) : Option Observation :=
  match appendedRow rt c with
  | .ok row => if row.hasNull then none else some row
  | .error _ => none

theorem appendedRow_of_added {c : AppendCall} {row : Observation} (h : addedRow rt c = some row) :
    appendedRow rt c = .ok row := by
  unfold addedRow at h
  cases happended : appendedRow rt c with
  | error e =>
    rw [happended] at h
    cases h
  | ok row' =>
    rw [happended] at h
    simp only [Option.ite_none_left_eq_some, Option.some.injEq] at h
    rw [h.2]

/-- What one call does to the table. -/
theorem after_eq (ledger : SessionLedger) (c : AppendCall) :
    ledger.after rt c =
      insertAll Observation.receiptId ledger (addedRow rt c).toList := by
  unfold SessionLedger.after addedRow
  cases happended : appendedRow rt c with
  | error e =>
    have hraised : ledger.append rt c = .error e := by
      unfold SessionLedger.append
      rw [happended]
      rfl
    rw [hraised]
    rfl
  | ok row =>
    by_cases hnull : row.hasNull = true
    · have hignored : ledger.append rt c = .ok ledger := by
        unfold SessionLedger.append
        rw [happended]
        exact if_pos hnull
      simp only [hignored, if_pos hnull]
      rfl
    · have hinserted : ledger.append rt c =
          .ok (insertOrIgnore Observation.receiptId ledger row) := by
        unfold SessionLedger.append
        rw [happended]
        exact if_neg hnull
      simp only [hinserted, if_neg hnull]
      rfl

/-- **A run inserts the rows of its calls, in order.** -/
theorem run_eq (calls : List AppendCall) (ledger : SessionLedger) :
    SessionLedger.run rt ledger calls =
      insertAll Observation.receiptId ledger (calls.filterMap (addedRow rt)) := by
  induction calls generalizing ledger with
  | nil => rfl
  | cons c calls ih =>
    show SessionLedger.run rt (ledger.after rt c) calls = _
    rw [ih, after_eq]
    cases haddedRow : addedRow rt c with
    | none => rw [List.filterMap_cons_none haddedRow]; rfl
    | some row => rw [List.filterMap_cons_some haddedRow]; rfl

variable {calls : List AppendCall}

theorem run_nodup : ((SessionLedger.run rt [] calls).map Observation.receiptId).Nodup := by
  have hempty : (([] : List Observation).map Observation.receiptId).Nodup := List.nodup_nil
  rw [run_eq]
  exact insertAll_nodup hempty _

/-- Every row was made by an accepted call. -/
theorem row_of_run {row : Observation} (h : row ∈ SessionLedger.run rt [] calls) :
    ∃ c ∈ calls, appendedRow rt c = .ok row := by
  rw [run_eq] at h
  rcases mem_insertAll h with h | h
  · cases h
  · obtain ⟨c, hc, hrow⟩ := List.mem_filterMap.mp h
    exact ⟨c, hc, appendedRow_of_added hrow⟩

section Run

variable (hobs : Observed rt upper calls)

include hobs

theorem Observed.sound {c : AppendCall} (hc : c ∈ calls) : c.receipt.Sound :=
  (hobs.minted c hc).sound

theorem Observed.same {c c' : AppendCall} (hc : c ∈ calls) (hc' : c' ∈ calls)
    (h : c.receipt.receiptId = c'.receipt.receiptId) : c.receipt = c'.receipt :=
  receipt_ext h (hobs.noCollision c hc c' hc' h)

theorem Observed.added {c : AppendCall} (hc : c ∈ calls) {row : Observation}
    (h : appendedRow rt c = .ok row) : addedRow rt c = some row := by
  unfold addedRow
  rw [h]
  exact if_neg (Bool.not_eq_true _ ▸ (appendedRow_ok h).hasNull (hobs.sound hc) (hobs.clock c hc))

/-- **Every accepted receipt has a row**, made by a call with that receipt. -/
theorem Observed.stored {c : AppendCall} (hc : c ∈ calls) (ha : Accepted rt c) :
    ∃ row ∈ SessionLedger.run rt [] calls, ∃ c' ∈ calls, c'.receipt = c.receipt ∧
      c'.scope = c.scope ∧ RowOf c' row := by
  obtain ⟨row, hrow⟩ := ha
  have hkey : c.receipt.receiptId ∈
      (SessionLedger.run rt [] calls).map Observation.receiptId := by
    rw [run_eq, key_insertAll]
    refine .inr (List.mem_map.mpr ⟨row, ?_, (appendedRow_ok hrow).receiptId⟩)
    exact List.mem_filterMap.mpr ⟨c, hc, hobs.added hc hrow⟩
  obtain ⟨row', hmem, hid⟩ := List.mem_map.mp hkey
  obtain ⟨c', hc', hrow'⟩ := row_of_run hmem
  have hof := appendedRow_ok hrow'
  have hreceipt := hobs.same hc' hc (by rw [← hof.receiptId, hid])
  refine ⟨row', hmem, c', hc', hreceipt, ?_, hof⟩
  rw [← hof.sameScope, hreceipt, (appendedRow_ok hrow).sameScope]

end Run

/-! ## §6. Reads. -/

/-- Rows of one ledger with one receipt id are one row. -/
theorem run_inj {o o' : Observation} (h : o ∈ SessionLedger.run rt [] calls)
    (h' : o' ∈ SessionLedger.run rt [] calls) (hid : o.receiptId = o'.receiptId) : o = o' :=
  List.inj_on_of_nodup_map run_nodup h h' hid

theorem get_of_mem {o : Observation} (h : o ∈ SessionLedger.run rt [] calls) {c : AppendCall}
    (hrow : RowOf c o) :
    (SessionLedger.run rt [] calls).get c.scope c.receipt.receiptId = .ok (some o.record) := by
  unfold SessionLedger.get
  rw [hrow.scopeHex, hrow.idHex, if_neg (by decide), if_neg (by decide)]
  have hsome : ((SessionLedger.run rt [] calls).find? (fun o' =>
      o'.sessionScopeSha256 == c.scope && o'.receiptId == c.receipt.receiptId)).isSome = true := by
    rw [List.find?_isSome]
    refine ⟨o, h, ?_⟩
    rw [hrow.scope, hrow.receiptId, beq_self_eq_true, beq_self_eq_true]
    rfl
  obtain ⟨o', ho'⟩ := Option.isSome_iff_exists.mp hsome
  have hfound := List.find?_some ho'
  rw [Bool.and_eq_true, beq_iff_eq, beq_iff_eq] at hfound
  rw [ho', run_inj (List.mem_of_find?_eq_some ho') h (hfound.2.trans hrow.receiptId.symm)]
  rfl

theorem mem_of_get {scope receiptId : PyStr} {r : SessionRecord}
    (h : (SessionLedger.run rt [] calls).get scope receiptId = .ok (some r)) :
    ∃ o ∈ SessionLedger.run rt [] calls, o.sessionScopeSha256 = scope ∧ o.record = r := by
  unfold SessionLedger.get at h
  by_cases hscope : (!isSha256Hex scope) = true
  · rw [if_pos hscope] at h
    cases h
  rw [if_neg hscope] at h
  by_cases hid : (!isSha256Hex receiptId) = true
  · rw [if_pos hid] at h
    cases h
  rw [if_neg hid, Except.ok.injEq, Option.map_eq_some_iff] at h
  obtain ⟨o, ho, hr⟩ := h
  have hfound := List.find?_some ho
  rw [Bool.and_eq_true, beq_iff_eq] at hfound
  exact ⟨o, List.mem_of_find?_eq_some ho, hfound.1, hr⟩

theorem mem_scoped {ledger : SessionLedger} {scope : PyStr} {kind : Option PyStr}
    {o : Observation} (h : o ∈ ledger.scoped scope kind) :
    o ∈ ledger ∧ o.sessionScopeSha256 = scope := by
  unfold SessionLedger.scoped at h
  rw [List.mem_filter, Bool.and_eq_true, beq_iff_eq] at h
  exact ⟨h.1, h.2.1⟩

theorem mem_scoped_none {ledger : SessionLedger} {scope : PyStr} {o : Observation} :
    o ∈ ledger.scoped scope none ↔ o ∈ ledger ∧ o.sessionScopeSha256 = scope := by
  unfold SessionLedger.scoped
  rw [List.mem_filter, Bool.and_eq_true, beq_iff_eq]
  simp

theorem recent_ok {engine : Descending Observation.time} {ledger : SessionLedger} {scope : PyStr}
    (hscope : isSha256Hex scope = true) (limit : Int) (kind : Option PyStr) :
    ledger.recent engine scope limit kind = .ok (((engine.order (ledger.scoped scope kind)).take
      (max 1 (min limit 100)).toNat).map Observation.record) := by
  unfold SessionLedger.recent
  rw [hscope, if_neg (by decide)]

theorem mem_of_recent {engine : Descending Observation.time} {ledger : SessionLedger}
    {scope : PyStr} {limit : Int} {kind : Option PyStr} {records : List SessionRecord}
    (h : ledger.recent engine scope limit kind = .ok records) {r : SessionRecord}
    (hr : r ∈ records) : ∃ o ∈ ledger, o.sessionScopeSha256 = scope ∧ o.record = r := by
  by_cases hscope : isSha256Hex scope = true
  · rw [recent_ok hscope, Except.ok.injEq] at h
    rw [← h] at hr
    obtain ⟨o, ho, hor⟩ := List.mem_map.mp hr
    obtain ⟨hmem, hs⟩ := mem_scoped ((engine.perm _).mem_iff.mp (List.mem_of_mem_take ho))
    exact ⟨o, hmem, hs, hor⟩
  · unfold SessionLedger.recent at h
    rw [if_pos (by rw [Bool.not_eq_true] at hscope; rw [hscope]; rfl)] at h
    cases h

/-- A row of a scope was made by an accepted call of that scope. -/
theorem call_of_row {o : Observation} (h : o ∈ SessionLedger.run rt [] calls) :
    ∃ c ∈ calls, Accepted rt c ∧ RowOf c o := by
  obtain ⟨c, hc, hrow⟩ := row_of_run h
  exact ⟨c, hc, ⟨o, hrow⟩, appendedRow_ok hrow⟩

section Reads

variable (hobs : Observed rt upper calls) (engine : Descending Observation.time)

include hobs

/-- **Labels, sources, digests and scopes are those of the receipts.** -/
theorem Observed.keepsReceipts : KeepsReceipts rt engine calls where
  got c hc ha := by
    obtain ⟨row, hmem, c', hc', hreceipt, hscope, hof⟩ := hobs.stored hc ha
    have hget := get_of_mem hmem hof
    obtain ⟨hlabel, hsource, hpayload⟩ := hof.receipt (hobs.sound hc')
    rw [hscope, hreceipt] at hget
    rw [hreceipt] at hlabel hsource hpayload
    refine ⟨row.record, hget, ?_, hlabel, hsource, hpayload⟩
    show row.receiptId = _
    rw [hof.receiptId, hreceipt]
  again c hc ha c' hreceipt := by
    obtain ⟨row, hmem, c'', -, hreceipt', -, hof⟩ := hobs.stored hc ha
    rw [after_eq]
    cases hadded : addedRow rt c' with
    | none => rfl
    | some row' =>
      -- the id is there, so that the row is ignored
      show insertOrIgnore _ _ row' = _
      apply insertOrIgnore_of_mem
      have hid := (appendedRow_ok (appendedRow_of_added hadded)).receiptId
      rw [hid, hreceipt, ← hreceipt', ← hof.receiptId]
      exact List.mem_map_of_mem hmem
  gotScope scope receiptId r h := by
    obtain ⟨o, ho, hscope, hr⟩ := mem_of_get h
    obtain ⟨c, hc, ha, hof⟩ := call_of_row ho
    exact ⟨c, hc, ha, hof.scope.symm.trans hscope, by rw [← hr]; exact hof.receiptId.symm⟩
  recentScope scope limit kind records h r hr := by
    obtain ⟨o, ho, hscope, hor⟩ := mem_of_recent h hr
    obtain ⟨c, hc, ha, hof⟩ := call_of_row ho
    exact ⟨c, hc, ha, hof.scope.symm.trans hscope, by rw [← hor]; exact hof.receiptId.symm⟩

/-- What a row and a call with its receipt have in common. -/
theorem Observed.row {o : Observation} (ho : o ∈ SessionLedger.run rt [] calls) {c : AppendCall}
    (hc : c ∈ calls) (hid : c.receipt.receiptId = o.receiptId) :
    ∃ c' ∈ calls, RowOf c' o ∧ c'.receipt = c.receipt := by
  obtain ⟨c', hc', -, hof⟩ := call_of_row ho
  exact ⟨c', hc', hof, hobs.same hc' hc (hof.receiptId.symm.trans hid.symm)⟩

/-- The time of a row, when no receipt was observed at zero. -/
theorem Observed.row_time (hne : ∀ c ∈ calls, Accepted rt c → c.receipt.observedAt.value ≠ 0)
    {scope : PyStr} {o : Observation} (ho : o ∈ SessionLedger.run rt [] calls) {c : AppendCall}
    (hc : Reports rt calls scope o.record c) : o.time = c.receipt.observedAt.value := by
  obtain ⟨c', hc', hof, hreceipt⟩ := hobs.row ho hc.mem hc.receiptId
  have hnonzero := hne c hc.mem hc.accepted
  rw [← hreceipt] at hnonzero ⊢
  unfold Observation.time
  rw [hof.time (hobs.sound hc') hnonzero]

/-- The receipts of a scope are the rows of the scope. -/
theorem Observed.scoped_length {scope : PyStr} {ids : List PyStr} (hn : ids.Nodup)
    (hids : ∀ id, id ∈ ids ↔
      ∃ c ∈ calls, Accepted rt c ∧ c.scope = scope ∧ c.receipt.receiptId = id) :
    ((SessionLedger.run rt [] calls).scoped scope none).length = ids.length := by
  have hkeys : (((SessionLedger.run rt [] calls).scoped scope none).map
      Observation.receiptId).Nodup :=
    run_nodup.sublist (List.filter_sublist.map _)
  rw [← List.length_map (f := Observation.receiptId)]
  apply List.Perm.length_eq
  rw [List.perm_ext_iff_of_nodup hkeys hn]
  intro id
  rw [hids, List.mem_map]
  constructor
  · intro h
    obtain ⟨o, ho, hid⟩ := h
    obtain ⟨hmem, hscope⟩ := mem_scoped ho
    obtain ⟨c, hc, ha, hof⟩ := call_of_row hmem
    exact ⟨c, hc, ha, hof.scope.symm.trans hscope, hof.receiptId.symm.trans hid⟩
  · intro h
    obtain ⟨c, hc, ha, hscope, hid⟩ := h
    obtain ⟨row, hmem, c', hc', hreceipt, hscope', hof⟩ := hobs.stored hc ha
    refine ⟨row, mem_scoped_none.mpr ⟨hmem, ?_⟩, ?_⟩
    · rw [hof.scope, hscope', hscope]
    · rw [hof.receiptId, hreceipt, hid]

/-- **The newest receipts come first**, when none was observed at zero. -/
theorem Observed.newest (hne : ∀ c ∈ calls, Accepted rt c → c.receipt.observedAt.value ≠ 0)
    {scope : PyStr} (limit : Int) :
    Newest rt calls scope limit
      (((engine.order ((SessionLedger.run rt [] calls).scoped scope none)).take
        (max 1 (min limit 100)).toNat).map Observation.record) := by
  have hperm := engine.perm ((SessionLedger.run rt [] calls).scoped scope none)
  have hsorted := engine.sorted ((SessionLedger.run rt [] calls).scoped scope none)
  have hrow : ∀ o ∈ engine.order ((SessionLedger.run rt [] calls).scoped scope none),
      o ∈ SessionLedger.run rt [] calls ∧ o.sessionScopeSha256 = scope :=
    fun o ho => mem_scoped (hperm.mem_iff.mp ho)
  have hids : (((engine.order ((SessionLedger.run rt [] calls).scoped scope none)).take
      (max 1 (min limit 100)).toNat).map Observation.receiptId).Nodup := by
    apply List.Nodup.sublist ((List.take_sublist _ _).map _)
    rw [(hperm.map _).nodup_iff]
    exact run_nodup.sublist (List.filter_sublist.map _)
  constructor
  · rw [List.map_map]
    exact hids
  · intro r hr
    obtain ⟨o, ho, hor⟩ := List.mem_map.mp hr
    obtain ⟨hmem, hscope⟩ := hrow o (List.mem_of_mem_take ho)
    obtain ⟨c, hc, ha, hof⟩ := call_of_row hmem
    refine ⟨c, hc, ha, hof.scope.symm.trans hscope, ?_⟩
    rw [← hor]
    exact hof.receiptId.symm
  · intro ids hn hcount
    rw [List.length_map, List.length_take, hperm.length_eq, hobs.scoped_length hn hcount]
  · rw [List.pairwise_map]
    apply List.Pairwise.imp_of_mem ?_ (hsorted.sublist (List.take_sublist _ _))
    intro o o' ho ho' hle c c' hc hc'
    rw [← hobs.row_time hne (hrow o (List.mem_of_mem_take ho)).1 hc,
      ← hobs.row_time hne (hrow o' (List.mem_of_mem_take ho')).1 hc']
    exact hle
  · intro r hr c hc c' hc' ha' hscope' hout
    obtain ⟨o, ho, rfl⟩ := List.mem_map.mp hr
    obtain ⟨row, hmem, c'', hc'', hreceipt, hscope, hof⟩ := hobs.stored hc' ha'
    have hscope : row.sessionScopeSha256 = scope := by
      rw [hof.scope, hscope, hscope']
    have hid : row.receiptId = c'.receipt.receiptId := by
      rw [hof.receiptId, hreceipt]
    have hin : row ∈ engine.order ((SessionLedger.run rt [] calls).scoped scope none) :=
      hperm.mem_iff.mpr (mem_scoped_none.mpr ⟨hmem, hscope⟩)
    have hle := take_greatest hsorted _ ho hin (fun htaken => by
      apply hout
      rw [List.map_map, ← hid]
      exact List.mem_map_of_mem htaken)
    rw [hobs.row_time hne (hrow o (List.mem_of_mem_take ho)).1 hc,
      hobs.row_time hne hmem ⟨hc', ha', hscope', hid.symm⟩] at hle
    exact hle

/-- **Times are kept exactly when none is zero.** -/
theorem Observed.keepsTimes_iff : KeepsTimes rt engine calls ↔
    ∀ c ∈ calls, Accepted rt c → c.receipt.observedAt.value ≠ 0 := by
  constructor
  · intro h c hc ha hzero
    obtain ⟨row, hmem, c', hc', hreceipt, hscope, hof⟩ := hobs.stored hc ha
    obtain ⟨r, hget, htime⟩ := h.got c hc ha
    have hstored := get_of_mem hmem hof
    rw [hscope, hreceipt, hget, Except.ok.injEq, Option.some.injEq] at hstored
    -- the row has the clock in place of the zero
    have hclock : row.observedAt = c'.observedClock :=
      hof.clock (hobs.sound hc') (by rw [hreceipt]; exact hzero)
    apply hobs.afterEpoch c' hc'
    have htime' : r.observedAt = row.observedAt := congrArg SessionRecord.observedAt hstored
    rw [← hclock, ← htime', htime, hzero]
  · intro hne
    constructor
    · intro c hc ha
      obtain ⟨row, hmem, c', hc', hreceipt, hscope, hof⟩ := hobs.stored hc ha
      have hget := get_of_mem hmem hof
      rw [hscope, hreceipt] at hget
      refine ⟨row.record, hget, ?_⟩
      have hnonzero := hne c hc ha
      rw [← hreceipt] at hnonzero ⊢
      exact hof.time (hobs.sound hc') hnonzero
    · intro scope limit hscope
      exact ⟨_, recent_ok hscope limit none, hobs.newest engine hne limit⟩

end Reads

end Runs

/-- **What the session ledger reports of a run of appends.** -/
theorem ledger_reports (rt : Runtime) (upper : PyStr → PyStr)
    (engine : Descending Observation.time) (calls : List AppendCall)
    (hobs : Observed rt upper calls) :
    KeepsReceipts rt engine calls ∧
    (KeepsTimes rt engine calls ↔
      ∀ c ∈ calls, Accepted rt c → c.receipt.observedAt.value ≠ 0) :=
  ⟨hobs.keepsReceipts engine, hobs.keepsTimes_iff engine⟩

/-! ## §7. A run. -/

def observedScope : PyStr := List.replicate 64 97
/-- A time in 2025. -/
def appendClock : PyFloat := ⟨0x41DA000000000000⟩

/-- The receipt of an empty observation. -/
def emptyReceipt (kind : PyStr) (observedAt : PyFloat) : ObservationReceipt :=
  let r : ObservationReceipt := {
    kind := kind
    sessionScopeSha256 := observedScope
    payloadSha256 := polynomialDigest [123, 125]
    sourceUrl := []
    observedAt := observedAt
    truthLabel := py "MEASURED"
    receiptId := [] }
  { r with receiptId := (sha256Json .ascii r.basis).toOption.getD [] }

def emptyCall (kind : PyStr) (observedAt : PyFloat) : AppendCall :=
  ⟨observedScope, kind, emptyReceipt kind observedAt, .dict [], appendClock, appendClock⟩

/-- Without a source and a time, the time is zero. -/
theorem emptyReceipt_minted : observationReceipt .ascii (List.map asciiUpper) observedScope
    (py "note") (.dict []) (py "measured") none none appendClock =
      .ok (emptyReceipt (py "note") .zero) := by
  decide +kernel

theorem accepted_of_isOk {rt : Runtime} {c : AppendCall} (h : (appendedRow rt c).isOk = true) :
    Accepted rt c := by
  cases hrow : appendedRow rt c with
  | error e =>
    rw [hrow] at h
    cases h
  | ok row => exact ⟨row, hrow⟩

/-- Rows by time, in the order of insertion among ties. -/
def byTime : Descending Observation.time where
  order rows := rows.insertionSort (fun a b => b.time ≤ a.time)
  perm rows := List.perm_insertionSort _ rows
  sorted rows := List.pairwise_insertionSort _ rows

/-- A run of two observations. -/
def observedCalls : List AppendCall := [emptyCall (py "note") .half, emptyCall (py "scan") .one]

theorem observedCalls_observed : Observed .ascii (List.map asciiUpper) observedCalls := by
  have hminted : Minted .ascii (List.map asciiUpper) (emptyReceipt (py "note") .half) :=
    ⟨observedScope, py "note", .dict [], py "measured", none, some .half, appendClock,
      by decide +kernel⟩
  have hminted' : Minted .ascii (List.map asciiUpper) (emptyReceipt (py "scan") .one) :=
    ⟨observedScope, py "scan", .dict [], py "measured", none, some .one, appendClock,
      by decide +kernel⟩
  have hne : (emptyReceipt (py "note") .half).receiptId ≠
      (emptyReceipt (py "scan") .one).receiptId := by decide +kernel
  have hclock : appendClock.isFinite = true := by decide
  constructor
  · intro c hc
    rcases List.mem_pair.mp hc with rfl | rfl
    · exact hminted
    · exact hminted'
  · intro c hc c' hc' hid
    rcases List.mem_pair.mp hc with rfl | rfl <;> rcases List.mem_pair.mp hc' with rfl | rfl
    · rfl
    · exact absurd hid hne
    · exact absurd hid.symm hne
    · rfl
  · intro c hc
    rcases List.mem_pair.mp hc with rfl | rfl <;> exact ⟨hclock, hclock⟩
  · have hafter : appendClock.value ≠ 0 := by decide +kernel
    intro c hc
    rcases List.mem_pair.mp hc with rfl | rfl <;> exact hafter

theorem ledger_reports_sample : (∀ c ∈ observedCalls, Accepted .ascii c) ∧
    KeepsReceipts .ascii byTime observedCalls ∧ KeepsTimes .ascii byTime observedCalls := by
  have haccepted : ∀ c ∈ observedCalls, Accepted .ascii c := by
    intro c hc
    apply accepted_of_isOk
    rcases List.mem_pair.mp hc with rfl | rfl <;> decide +kernel
  obtain ⟨hreceipts, htimes⟩ := ledger_reports .ascii (List.map asciiUpper) byTime observedCalls
    observedCalls_observed
  refine ⟨haccepted, hreceipts, htimes.mpr ?_⟩
  intro c hc _
  rcases List.mem_pair.mp hc with rfl | rfl <;> decide +kernel

/-- **A receipt of time zero** is reported, and ordered, at the time of its append. -/
theorem ledger_forgets_zero :
    observationReceipt .ascii (List.map asciiUpper) observedScope (py "note") (.dict [])
      (py "measured") none none appendClock = .ok (emptyReceipt (py "note") .zero) ∧
    Accepted .ascii (emptyCall (py "note") .zero) ∧
    (∃ r, (SessionLedger.run .ascii [] [emptyCall (py "note") .zero]).get observedScope
      (emptyReceipt (py "note") .zero).receiptId = .ok (some r) ∧ r.observedAt = appendClock) ∧
    appendClock ≠ (emptyReceipt (py "note") .zero).observedAt ∧
    ¬ KeepsTimes .ascii byTime [emptyCall (py "note") .zero] := by
  have haccepted : Accepted .ascii (emptyCall (py "note") .zero) :=
    accepted_of_isOk (by decide +kernel)
  have hget : ∃ r, (SessionLedger.run .ascii [] [emptyCall (py "note") .zero]).get observedScope
      (emptyReceipt (py "note") .zero).receiptId = .ok (some r) ∧ r.observedAt = appendClock :=
    ⟨⟨(emptyReceipt (py "note") .zero).receiptId, py "note", appendClock, py "MEASURED", [],
      polynomialDigest [123, 125], py "{}"⟩, by decide +kernel, rfl⟩
  refine ⟨emptyReceipt_minted, haccepted, hget, by decide, ?_⟩
  intro h
  obtain ⟨r, hr, htime⟩ := h.got _ List.mem_cons_self haccepted
  obtain ⟨r', hr', hclock⟩ := hget
  have hsame : r = r' := by
    have heq := hr.symm.trans hr'
    rwa [Except.ok.injEq, Option.some.injEq] at heq
  rw [hsame, hclock] at htime
  exact absurd htime (by decide)

end Lyte
