import Lyte.Governance.MemoryDrafts
import Lyte.Persistence.MemoryEvidence
import Lyte.Persistence.OperationalListing

/-
  Lyte.Persistence.MemorySearch — a bounded search of the memory.

  `list_memory` lets the database filter by kind, receipt and time, reads the
  newest `scan_limit + 1` rows of that, and looks for the subject dimensions in
  Python.  The time bounds are compared by the database, which on SQLite knows
  no offsets.

      list_memory_exact    where the search is the reference filter.
-/

namespace Lyte

open Transact Paging

variable {rt : Runtime} {d : Dialect}

/-! ## §1. Queries. -/

/-- The filters of `list_memory`, and its scan limit. -/
structure MemoryQuery where
  kind : Option MemoryKind
  subjectDimensions : List (PyStr × PyStr)
  receiptHash : Option PyStr
  createdAfter : Option Stamp
  createdBefore : Option Stamp
  scanLimit : Int

structure MemoryQueryResult where
  items : List MemoryRecord
  matchedInScan : Nat
  scanned : Nat
  scanLimit : Int
  scanTruncated : Bool
  hasMore : Bool

/-- The loop over `subject_dimensions`. -/
def searchDimensions : List (PyStr × PyStr) → List (PyStr × PyStr) →
    Except Exn (List (PyStr × PyStr))
  | [], dimensions => .ok dimensions
  | (rawDimension, rawValue) :: rest, dimensions =>
      let dimension := (strip rawDimension).map asciiLower
      let value := strip rawValue
      if !subjectDimensionNames.contains dimension then
        .error (.valueError (py "unsupported memory subject dimension: " ++ dimension))
      else if value.isEmpty then
        .error (.valueError
          (py "memory subject dimension " ++ dimension ++ py " cannot be blank"))
      else searchDimensions rest (assign dimensions dimension value)

/-- The bound has no timezone. -/
def isNaive (bound : Option Stamp) : Bool := bound.any (fun b => b.offset.isNone)

/-- The checks of the filters; the dimensions as they are looked for. -/
def MemoryQuery.check (q : MemoryQuery) : Except Exn (List (PyStr × PyStr)) :=
  if ¬ (1 ≤ q.scanLimit ∧ q.scanLimit ≤ 1000) then
    .error (.valueError (py "scan_limit must be between 1 and 1000"))
  else match searchDimensions q.subjectDimensions [] with
    | .error e => .error e
    | .ok dimensions =>
        if q.receiptHash.any (fun h => !isSha256Hex h) then
          .error (.valueError (py "receipt_hash must be a lowercase SHA-256 digest"))
        else if isNaive q.createdAfter then
          .error (.valueError (py "created_after must be timezone-aware"))
        else if isNaive q.createdBefore then
          .error (.valueError (py "created_before must be timezone-aware"))
        else if q.createdAfter.any (fun a => q.createdBefore.any
            (fun b => decide (b.instant < a.instant))) then
          .error (.valueError (py "created_before cannot precede created_after"))
        else .ok dimensions

/-- `left <= right` of two datetimes, one of a column and one bound: SQLite compares the
wall clocks, PostgreSQL the instants. -/
def Dialect.le : Dialect → Stamp → Stamp → Bool
  | .sqlite, left, right => decide (left.wall ≤ right.wall)
  | .postgresql, left, right => decide (left.instant ≤ right.instant)

/-- The conditions of the statement on kind, receipt and time. -/
def MemoryQuery.selects (q : MemoryQuery) (d : Dialect) (row : MemoryRecord) : Bool :=
  q.kind.all (fun k => row.memoryKind == k.value) &&
    q.receiptHash.all (fun h => row.receiptHash == some h) &&
    q.createdAfter.all (fun a => d.le a row.createdAt) &&
    q.createdBefore.all (fun b => d.le row.createdAt b)

/-- `row.metadata_json.get("subject_dimensions", {})`; the column always holds a dict. -/
def MemoryRecord.storedDimensions (row : MemoryRecord) : Json :=
  match row.metadataJson with
  | .dict fields => (fields.lookup (py "subject_dimensions")).getD (.dict [])
  | _ => .dict []

/-- `isinstance(stored.get(dimension), list) and value in stored[dimension]`. -/
def listsValue (stored : List (PyStr × Json)) (dimension value : PyStr) : Bool :=
  match stored.lookup dimension with
  | some (.list items) => items.any (fun item => match item with
      | .str s => s == value
      | _ => false)
  | _ => false

/-- `matches`. -/
def matchesDimensions (dimensions : List (PyStr × PyStr)) (row : MemoryRecord) : Bool :=
  match row.storedDimensions with
  | .dict stored => dimensions.all (fun p => listsValue stored p.1 p.2)
  | _ => dimensions.isEmpty

/-- The newest entry first. -/
def newestFirst : Paging.Order Int where
  le a b := decide (b ≤ a)
  total a b := by
    rw [Bool.or_eq_true, decide_eq_true_eq, decide_eq_true_eq]
    omega
  trans a b c hab hbc := by
    rw [decide_eq_true_eq] at hab hbc ⊢
    omega
  antisymm a b hab hba := by
    rw [decide_eq_true_eq] at hab hba
    omega

/-- `ORDER BY sequence DESC`, of the rows of a scope. -/
def memoryStream (db : Db) (scope : Scope) : List MemoryRecord :=
  newestFirst.sort (fun r : MemoryRecord => r.sequence)
    (db.memory.filter (fun r => r.inScope scope))

/-- The rows that the statement finds, before its LIMIT. -/
def MemoryQuery.candidates (q : MemoryQuery) (d : Dialect) (db : Db) (scope : Scope)
    (partitionDigest : PyStr) : List MemoryRecord :=
  (memoryStream db scope).filter (fun r => r.scopeDigest == partitionDigest && q.selects d r)

/-- What `list_memory` makes of the rows that it read. -/
def searchResult (q : MemoryQuery) (dimensions : List (PyStr × PyStr)) (limit offset : Int)
    (candidates : List MemoryRecord) : MemoryQueryResult :=
  let scannedRows := candidates.take q.scanLimit.toNat
  let matched := scannedRows.filter (matchesDimensions dimensions)
  let items := portion matched offset.toNat limit.toNat
  { items := items
    matchedInScan := matched.length
    scanned := scannedRows.length
    scanLimit := q.scanLimit
    scanTruncated := decide (q.scanLimit.toNat < candidates.length)
    hasMore := decide (offset.toNat + items.length < matched.length) }

/-- `list_memory`. -/
def listMemory (rt : Runtime) (d : Dialect) (scope : Scope) (q : MemoryQuery)
    (limit offset : Int) : StoreProg MemoryQueryResult :=
  if ¬ (1 ≤ limit ∧ limit ≤ 500) then
    .raise (.valueError (py "limit must be between 1 and 500"))
  else if ¬ (0 ≤ offset ∧ offset ≤ 1000) then
    .raise (.valueError (py "offset must be between 0 and 1000"))
  else match q.check with
    | .error e => .raise e
    | .ok dimensions => readSession do
        assertScope scope
        let partitionDigest ← Body.ofExcept (enterpriseMemoryPartition rt scope)
        let candidates ← Body.select (fun db =>
          (q.candidates d db scope partitionDigest).take (q.scanLimit.toNat + 1))
        return searchResult q dimensions limit offset candidates

/-! ## §2. The reference filter. -/

/-- The entry satisfies the filters that are not about subjects, its time compared as an
instant. -/
def MemoryQuery.Accepts (q : MemoryQuery) (row : MemoryRecord) : Prop :=
  (∀ k, q.kind = some k → row.memoryKind = k.value) ∧
  (∀ h, q.receiptHash = some h → row.receiptHash = some h) ∧
  (∀ a, q.createdAfter = some a → a.instant ≤ row.createdAt.instant) ∧
  (∀ b, q.createdBefore = some b → row.createdAt.instant ≤ b.instant)

/-- The entry has all the subjects. -/
def AboutSubjects (dimensions : List (PyStr × PyStr)) (row : MemoryRecord) : Prop :=
  ∀ p ∈ dimensions, ∃ stored items, row.storedDimensions = .dict stored ∧
    stored.lookup p.1 = some (.list items) ∧ Json.str p.2 ∈ items

theorem selects_postgresql (q : MemoryQuery) (row : MemoryRecord) :
    q.selects .postgresql row = true ↔ q.Accepts row := by
  unfold MemoryQuery.selects MemoryQuery.Accepts Dialect.le
  cases q.kind <;> cases q.receiptHash <;> cases q.createdAfter <;> cases q.createdBefore <;>
    simp [and_assoc]

theorem listsValue_iff (stored : List (PyStr × Json)) (dimension value : PyStr) :
    listsValue stored dimension value = true ↔
      ∃ items, stored.lookup dimension = some (.list items) ∧ Json.str value ∈ items := by
  unfold listsValue
  cases hl : stored.lookup dimension with
  | none => simp
  | some v =>
    cases v with
    | list items =>
      show (items.any _) = true ↔ _
      rw [List.any_eq_true]
      constructor
      · intro h
        obtain ⟨item, hmem, hitem⟩ := h
        cases item with
        | str s =>
          have hs : s = value := beq_iff_eq.mp hitem
          rw [hs] at hmem
          exact ⟨items, rfl, hmem⟩
        | _ => cases hitem
      · intro h
        obtain ⟨items', heq, hmem⟩ := h
        cases heq
        exact ⟨_, hmem, beq_self_eq_true value⟩
    | _ => simp

theorem matchesDimensions_iff (dimensions : List (PyStr × PyStr)) (row : MemoryRecord) :
    matchesDimensions dimensions row = true ↔ AboutSubjects dimensions row := by
  unfold matchesDimensions AboutSubjects
  cases hs : row.storedDimensions with
  | dict stored =>
    show dimensions.all _ = true ↔ _
    rw [List.all_eq_true]
    constructor
    · intro h p hp
      obtain ⟨items, hl, hmem⟩ := (listsValue_iff stored p.1 p.2).mp (h p hp)
      exact ⟨stored, items, rfl, hl, hmem⟩
    · intro h p hp
      obtain ⟨stored', items, heq, hl, hmem⟩ := h p hp
      cases heq
      exact (listsValue_iff stored p.1 p.2).mpr ⟨items, hl, hmem⟩
  | _ =>
    show dimensions.isEmpty = true ↔ _
    rw [List.isEmpty_iff]
    constructor
    · intro h p hp
      rw [h] at hp
      cases hp
    · intro h
      rw [List.eq_nil_iff_forall_not_mem]
      intro p hp
      obtain ⟨_, _, heq, _⟩ := h p hp
      cases heq

instance (q : MemoryQuery) : DecidablePred q.Accepts :=
  fun row => decidable_of_iff _ (selects_postgresql q row)

instance (dimensions : List (PyStr × PyStr)) : DecidablePred (AboutSubjects dimensions) :=
  fun row => decidable_of_iff _ (matchesDimensions_iff dimensions row)

section Reference

variable (q : MemoryQuery) (dimensions : List (PyStr × PyStr)) (db : Db) (scope : Scope)

/-- The entries of the scope that satisfy the filters not about subjects, newest first. -/
def MemoryQuery.accepted : List MemoryRecord :=
  (memoryStream db scope).filter (fun r => q.Accepts r)

/-- The matches among the newest `scan_limit` of these. -/
def MemoryQuery.found : List MemoryRecord :=
  ((q.accepted db scope).take q.scanLimit.toNat).filter (fun r => AboutSubjects dimensions r)

/-- A call of `list_memory` that returns this result. -/
def Searches (rt : Runtime) (d : Dialect) (limit offset : Int) (r : MemoryQueryResult) : Prop :=
  ∃ faults, ((listMemory rt d scope q limit offset).exec (engine d) (.idle db faults)).1 = .ok r

/-- **The search is the reference filter.** -/
structure SearchExact (rt : Runtime) (d : Dialect) : Prop where
  /-- Every call returns its slice of the matches, and says truthfully whether the scan
  is truncated and whether there are more matches in the window … -/
  slice : ∀ limit offset r, Searches q db scope rt d limit offset r →
    r.items = portion (q.found dimensions db scope) offset.toNat limit.toNat ∧
    (r.scanTruncated = true ↔ q.scanLimit.toNat < (q.accepted db scope).length) ∧
    (r.hasMore = true ↔ offset.toNat + r.items.length < (q.found dimensions db scope).length)
  /-- … the newest is the first … -/
  newest : (q.found dimensions db scope).Pairwise (fun a b => b.sequence < a.sequence)
  /-- … whoever follows the next offsets from 0 sees every match once … -/
  walk : ∀ ps, Walk (fun offset items more => ∃ limit r,
    Searches q db scope rt d limit offset r ∧ r.items = items ∧ r.hasMore = more) 0 ps →
    ps = q.found dimensions db scope
  /-- … and comes to the end. -/
  ends : HasWorkspace db scope → (∃ p, enterpriseMemoryPartition rt scope = .ok p) →
    ∀ limit : Int, 1 ≤ limit → limit ≤ 500 → Walk (fun offset items more => ∃ r,
    Searches q db scope rt d limit offset r ∧ r.items = items ∧ r.hasMore = more) 0
    (q.found dimensions db scope)

/-- The bounds as the database compares them find the same matches in the window as the
instants do, and truncate the scan alike. -/
def SameSelection (d : Dialect) : Prop :=
  (((memoryStream db scope).filter (q.selects d)).take q.scanLimit.toNat).filter
      (matchesDimensions dimensions) = q.found dimensions db scope ∧
  (q.scanLimit.toNat < ((memoryStream db scope).filter (q.selects d)).length ↔
    q.scanLimit.toNat < (q.accepted db scope).length)

/-- The bounds of the query have UTC offset zero. -/
def MemoryQuery.InUtc : Prop :=
  ∀ b, q.createdAfter = some b ∨ q.createdBefore = some b → b.offset = some 0

end Reference

/-! ## §3. What the store holds. -/

section Stored

variable {db : Db} {scope : Scope}

/-- A column gives back no offset other than zero. -/
theorem stamp_offset (s : Stamp) : (d.stamp s).offset.getD 0 = 0 := by
  cases d
  · rfl
  · rfl

theorem env_stamped {G : Db → List Write → Prop} {held : List RowLock} {db db' : Db}
    (h : Env (engine d) index G held db db')
    (hm : ∀ m ∈ db.memory, m.createdAt.offset.getD 0 = 0) :
    ∀ m ∈ db'.memory, m.createdAt.offset.getD 0 = 0 := by
  induction h with
  | refl => exact hm
  | commit _ _ _ _ ih =>
    intro m hmem
    rcases mem_memory_commit hmem with hmem | ⟨m', _, he⟩
    · exact ih m hmem
    · rw [he]
      exact stamp_offset m'.createdAt

/-- What a search needs to know of the store. -/
structure SearchInv (rt : Runtime) (db : Db) : Prop where
  store : StoreInv rt db
  partitioned : ∀ scope, ∀ m ∈ db.memory, m.inScope scope = true →
    enterpriseMemoryPartition rt scope = .ok m.scopeDigest
  utc : ∀ m ∈ db.memory, m.createdAt.offset.getD 0 = 0

/-- **Every reachable store is so.** -/
theorem searchInv_run (rt : Runtime) (d : Dialect) (calls : List Issued) :
    SearchInv rt (runCalls rt d Db.empty calls) where
  store := storeInv_run calls (storeInv_empty rt)
  partitioned := by
    intro scope m hm hs
    obtain ⟨scope', _, _, he⟩ := backed_run calls (storeInv_empty rt)
      (fun _ hm => by cases hm) m hm
    obtain ⟨ht, hw⟩ := inScope_ids hs
    obtain ⟨ht', hw'⟩ := inScope_ids he.memoryScope
    rw [scope_ext (ht.symm.trans ht') (hw.symm.trans hw')]
    exact he.partitioned
  utc := env_stamped (runCalls_env calls Db.empty) (fun _ hm => by cases hm)

/-- Two memory rows of a scope with one sequence number are one row. -/
theorem memory_pairwise (hi : StoreInv rt db) (scope : Scope) :
    (db.memory.filter (fun r => r.inScope scope)).Pairwise
      (fun a b => a.sequence ≠ b.sequence) := by
  have hpair := hi.unique .memory
  unfold Db.rows at hpair
  rw [List.pairwise_map] at hpair
  refine (hpair.sublist List.filter_sublist).imp_of_mem ?_
  intro a b ha hb hkeys hsame
  obtain ⟨hta, hwa⟩ := inScope_ids (List.mem_filter.mp ha).2
  obtain ⟨htb, hwb⟩ := inScope_ids (List.mem_filter.mp hb).2
  have hka : Key.rowSequence .memory a.tenantId a.workspaceId a.sequence
      ∈ (Row.memory a).keys := by simp [Row.keys]
  have hkb : Key.rowSequence .memory b.tenantId b.workspaceId b.sequence
      ∈ (Row.memory b).keys := by simp [Row.keys]
  rw [htb, hwb, ← hta, ← hwa, ← hsame] at hkb
  exact hkeys _ hka hkb

/-- **The stream is in order, the newest entry first.** -/
theorem memoryStream_newest (hi : StoreInv rt db) (scope : Scope) :
    (memoryStream db scope).Pairwise (fun a b => b.sequence < a.sequence) := by
  have hsorted := Order.sort_increasing newestFirst (memory_pairwise hi scope)
  refine hsorted.imp ?_
  intro a b hab
  have hle : b.sequence ≤ a.sequence := of_decide_eq_true hab.1
  have hne : a.sequence ≠ b.sequence := hab.2
  omega

theorem mem_memoryStream {m : MemoryRecord} :
    m ∈ memoryStream db scope ↔ m ∈ db.memory ∧ m.inScope scope = true := by
  unfold memoryStream
  rw [Order.mem_sort, List.mem_filter]

/-- The partition keeps every row of the scope. -/
theorem candidates_eq (hi : SearchInv rt db) {partitionDigest : PyStr}
    (hp : enterpriseMemoryPartition rt scope = .ok partitionDigest) (q : MemoryQuery) :
    q.candidates d db scope partitionDigest = (memoryStream db scope).filter (q.selects d) := by
  unfold MemoryQuery.candidates
  apply List.filter_congr
  intro m hm
  obtain ⟨hmem, hs⟩ := mem_memoryStream.mp hm
  have hdigest := hi.partitioned scope m hmem hs
  rw [hp] at hdigest
  cases hdigest
  rw [beq_self_eq_true, Bool.true_and]

end Stored

/-! ## §4. Calls. -/

section Calls

variable {q : MemoryQuery} {dimensions : List (PyStr × PyStr)} {db : Db} {scope : Scope}

/-- The row behind the window is read for the truncation only. -/
theorem searchResult_take (limit offset : Int) (rows : List MemoryRecord) :
    searchResult q dimensions limit offset (rows.take (q.scanLimit.toNat + 1))
      = searchResult q dimensions limit offset rows := by
  unfold searchResult
  have hwindow : (rows.take (q.scanLimit.toNat + 1)).take q.scanLimit.toNat
      = rows.take q.scanLimit.toNat := by
    rw [List.take_take, Nat.min_eq_left (by omega)]
  have htruncated : q.scanLimit.toNat < (rows.take (q.scanLimit.toNat + 1)).length ↔
      q.scanLimit.toNat < rows.length := by
    rw [List.length_take]
    omega
  simp only [hwindow, htruncated]

theorem check_scanLimit (hq : q.check = .ok dimensions) : q.scanLimit.toNat ≤ 1000 := by
  unfold MemoryQuery.check at hq
  split at hq
  · cases hq
  · omega

/-- A call that returns was admitted, and its result is of the rows that the statement
finds. -/
theorem Searches.eq (hi : SearchInv rt db) (hq : q.check = .ok dimensions) {limit offset : Int}
    {r : MemoryQueryResult} (h : Searches q db scope rt d limit offset r) :
    r = searchResult q dimensions limit offset ((memoryStream db scope).filter (q.selects d)) := by
  obtain ⟨faults, h⟩ := h
  unfold listMemory at h
  split at h
  · cases h
  · split at h
    · cases h
    · rw [hq] at h
      simp only at h
      rcases exec_readSession (engine d) (do
          assertScope scope
          let partitionDigest ← Body.ofExcept (enterpriseMemoryPartition rt scope)
          let candidates ← Body.select (fun db =>
            (q.candidates d db scope partitionDigest).take (q.scanLimit.toNat + 1))
          return searchResult q dimensions limit offset candidates : StoreBody MemoryQueryResult)
          db faults with ⟨e, fs, hx⟩ | ⟨a, rows, fs, hev, hx⟩
      · rw [hx] at h
        cases h
      · rw [hx] at h
        cases h
        rw [Body.bind_eq] at hev
        obtain ⟨_, ws, hscope, hev⟩ := eval_bind_ok _ hev
        rw [eval_assertScope] at hscope
        split at hscope
        · cases hscope
          rw [Body.bind_eq] at hev
          obtain ⟨p, ws', hx, hev⟩ := eval_bind_ok _ hev
          obtain ⟨hp, rfl⟩ := eval_ofExcept_ok _ hx
          rw [Body.bind_eq, eval_select_bind, Engine.view_nil, candidates_eq hi hp,
            searchResult_take] at hev
          cases hev
          rfl
        · cases hscope

/-- An admitted call returns, where no statement fails. -/
theorem searches_returns (hi : SearchInv rt db) (hq : q.check = .ok dimensions)
    (hw : HasWorkspace db scope) {p : PyStr} (hp : enterpriseMemoryPartition rt scope = .ok p)
    (limit offset : Int) (hlimit : 1 ≤ limit ∧ limit ≤ 500) (hoffset : 0 ≤ offset ∧ offset ≤ 1000) :
    Searches q db scope rt d limit offset (searchResult q dimensions limit offset
      ((memoryStream db scope).filter (q.selects d))) := by
  refine ⟨[], ?_⟩
  unfold listMemory
  rw [if_neg (not_not.mpr hlimit), if_neg (not_not.mpr hoffset), hq]
  simp only
  rw [exec_readSession_noFaults, Body.bind_eq, eval_bind, eval_assertScope,
    if_pos (scopeAsserted_of_hasWorkspace hi.store hw), hp]
  simp only
  rw [← searchResult_take, ← candidates_eq hi hp]
  rfl

/-- Without a workspace, or a name for the partition, there are no entries. -/
theorem memoryStream_nil (hi : SearchInv rt db)
    (h : ¬ (HasWorkspace db scope ∧ ∃ p, enterpriseMemoryPartition rt scope = .ok p)) :
    memoryStream db scope = [] := by
  rw [List.eq_nil_iff_forall_not_mem]
  intro m hm
  obtain ⟨hmem, hs⟩ := mem_memoryStream.mp hm
  apply h
  refine ⟨?_, m.scopeDigest, hi.partitioned scope m hmem hs⟩
  obtain ⟨ht, hw⟩ := inScope_ids hs
  have hscope := hi.store.inScope .memory (.memory m) (List.mem_map.mpr ⟨m, hmem, rfl⟩)
  rw [show (Row.memory m).mixin = m.toAppendOnlyMixin from rfl, ht, hw] at hscope
  exact hscope

theorem found_newest (hi : SearchInv rt db) :
    (q.found dimensions db scope).Pairwise (fun a b => b.sequence < a.sequence) :=
  (memoryStream_newest hi.store scope).sublist
    ((List.filter_sublist.trans (List.take_sublist _ _)).trans List.filter_sublist)

theorem found_length (hq : q.check = .ok dimensions) :
    (q.found dimensions db scope).length ≤ 1000 := by
  unfold MemoryQuery.found
  have hscan := check_scanLimit hq
  have hfilter := List.length_filter_le (fun r => decide (AboutSubjects dimensions r))
    ((q.accepted db scope).take q.scanLimit.toNat)
  rw [List.length_take] at hfilter
  omega

/-- **Where the bounds select alike, the search is exact.** -/
theorem searchExact_of_same (hi : SearchInv rt db) (hq : q.check = .ok dimensions)
    (hsame : SameSelection q dimensions db scope d) :
    SearchExact q dimensions db scope rt d := by
  have hslice : ∀ limit offset r, Searches q db scope rt d limit offset r →
      r.items = portion (q.found dimensions db scope) offset.toNat limit.toNat ∧
      (r.scanTruncated = true ↔ q.scanLimit.toNat < (q.accepted db scope).length) ∧
      (r.hasMore = true ↔
        offset.toNat + r.items.length < (q.found dimensions db scope).length) := by
    intro limit offset r hr
    rw [hr.eq hi hq]
    unfold searchResult
    refine ⟨?_, ?_, ?_⟩
    · show portion _ _ _ = _
      rw [hsame.1]
    · show decide _ = true ↔ _
      rw [decide_eq_true_eq]
      exact hsame.2
    · show decide _ = true ↔ _
      rw [decide_eq_true_eq]
      show _ ↔ offset.toNat + (portion _ _ _).length < _
      rw [hsame.1]
  refine ⟨hslice, found_newest hi, ?_, ?_⟩
  · intro ps hps
    have hrest := Walk.eq (l := q.found dimensions db scope) (by
      intro offset items more hread
      obtain ⟨limit, r, hr, hitems, hmore⟩ := hread
      obtain ⟨hpage, _, hhas⟩ := hslice limit offset r hr
      rw [hitems] at hpage hhas
      rw [hmore] at hhas
      exact ⟨⟨limit.toNat, hpage⟩, hhas⟩) hps
    rw [hrest, List.drop_zero]
  · intro hw hp limit hone hmax
    obtain ⟨p, hp⟩ := hp
    have hwalk : Walk (fun offset items more => ∃ r,
        Searches q db scope rt d limit offset r ∧ r.items = items ∧ r.hasMore = more) 0
        ((q.found dimensions db scope).drop 0) :=
      Walk.exists limit.toNat 1000 (by omega) (found_length hq) (by
        intro offset hoffset
        have hr := searches_returns (d := d) hi hq hw hp limit offset ⟨hone, hmax⟩
          ⟨by omega, by omega⟩
        obtain ⟨hpage, _, hhas⟩ := hslice _ _ _ hr
        refine ⟨_, hr, hpage, ?_⟩
        rw [Bool.eq_iff_iff, hhas, decide_eq_true_eq, hpage]
        rfl) (Nat.zero_le _)
    rw [List.drop_zero] at hwalk
    exact hwalk

/-- **Where the search is exact, the bounds select alike.** -/
theorem same_of_searchExact (hi : SearchInv rt db) (hq : q.check = .ok dimensions)
    (h : SearchExact q dimensions db scope rt d) : SameSelection q dimensions db scope d := by
  by_cases hadmitted : HasWorkspace db scope ∧ ∃ p, enterpriseMemoryPartition rt scope = .ok p
  · obtain ⟨hw, p, hp⟩ := hadmitted
    have hfirst := h.slice _ _ _ (searches_returns (d := d) hi hq hw hp 500 0
      (by omega) (by omega))
    have hsecond := h.slice _ _ _ (searches_returns (d := d) hi hq hw hp 500 500
      (by omega) (by omega))
    constructor
    · -- two pages hold all that a window can hold
      have hall : ∀ l : List MemoryRecord, l.length ≤ 1000 → portion l 0 500 ++ portion l 500 500 = l := by
        intro l hl
        rw [portion_append l 0 500 500]
        exact portion_all hl
      have hlength : (((memoryStream db scope).filter (q.selects d)).take
          q.scanLimit.toNat |>.filter (matchesDimensions dimensions)).length ≤ 1000 := by
        have hscan := check_scanLimit hq
        have hfilter := List.length_filter_le (matchesDimensions dimensions)
          (((memoryStream db scope).filter (q.selects d)).take q.scanLimit.toNat)
        rw [List.length_take] at hfilter
        omega
      rw [← hall _ hlength, ← hall _ (found_length hq)]
      exact congrArg₂ _ hfirst.1 hsecond.1
    · rw [← hfirst.2.1]
      show _ ↔ decide _ = true
      rw [decide_eq_true_eq]
  · have hnil := memoryStream_nil hi hadmitted
    unfold SameSelection MemoryQuery.found MemoryQuery.accepted
    rw [hnil]
    simp

/-- Datetimes without an offset compare as their instants. -/
theorem Dialect.le_utc {a b : Stamp} (ha : a.offset.getD 0 = 0) (hb : b.offset.getD 0 = 0) :
    Dialect.le .sqlite a b = Dialect.le .postgresql a b := by
  show decide (a.wall ≤ b.wall) = decide (a.instant ≤ b.instant)
  unfold Stamp.instant
  rw [ha, hb, Int.sub_zero, Int.sub_zero]

/-- PostgreSQL compares instants, and SQLite compares them where the bounds have no offset. -/
theorem same_of_utc (hi : SearchInv rt db) (h : d = .postgresql ∨ q.InUtc) :
    SameSelection q dimensions db scope d := by
  have hselects : ∀ m ∈ memoryStream db scope, q.selects d m = decide (q.Accepts m) := by
    intro m hm
    rw [Bool.eq_iff_iff, decide_eq_true_eq, ← selects_postgresql]
    rcases h with rfl | hutc
    · rfl
    · have hoffset := hi.utc m (mem_memoryStream.mp hm).1
      cases d with
      | postgresql => rfl
      | sqlite =>
        have hafter : q.createdAfter.all (fun a => Dialect.le .sqlite a m.createdAt)
            = q.createdAfter.all (fun a => Dialect.le .postgresql a m.createdAt) := by
          cases ha : q.createdAfter with
          | none => rfl
          | some a =>
            have hzero := hutc a (.inl ha)
            exact Dialect.le_utc (by rw [hzero]; rfl) hoffset
        have hbefore : q.createdBefore.all (fun b => Dialect.le .sqlite m.createdAt b)
            = q.createdBefore.all (fun b => Dialect.le .postgresql m.createdAt b) := by
          cases hb : q.createdBefore with
          | none => rfl
          | some b =>
            have hzero := hutc b (.inr hb)
            exact Dialect.le_utc hoffset (by rw [hzero]; rfl)
        unfold MemoryQuery.selects
        rw [hafter, hbefore]
  have hlist : (memoryStream db scope).filter (q.selects d) = q.accepted db scope :=
    List.filter_congr hselects
  refine ⟨?_, ?_⟩
  · rw [hlist]
    unfold MemoryQuery.found
    apply List.filter_congr
    intro m _
    rw [Bool.eq_iff_iff, decide_eq_true_eq]
    exact matchesDimensions_iff dimensions m
  · rw [hlist]

end Calls

/-- **The search is the reference filter exactly where the database's comparison of the
bounds selects what the instants do**, in every reachable store; on PostgreSQL, and with
bounds in UTC, it always does. -/
theorem list_memory_exact (rt : Runtime) (d : Dialect) (calls : List Issued) (scope : Scope)
    (q : MemoryQuery) (dimensions : List (PyStr × PyStr)) (hq : q.check = .ok dimensions) :
    (SearchExact q dimensions (runCalls rt d Db.empty calls) scope rt d ↔
      SameSelection q dimensions (runCalls rt d Db.empty calls) scope d) ∧
    (d = .postgresql ∨ q.InUtc →
      SameSelection q dimensions (runCalls rt d Db.empty calls) scope d) := by
  have hi := searchInv_run rt d calls
  refine ⟨⟨same_of_searchExact hi hq, searchExact_of_same hi hq⟩, same_of_utc hi⟩

/-! The memory of 2026-01-01T00:00:00Z, looked for from 01:00+02:00, an hour before it. -/

def earlierQuery : MemoryQuery where
  kind := none
  subjectDimensions := []
  receiptHash := none
  createdAfter := some ⟨sampleInstant.micros + 3600000000, some 7200000000⟩
  createdBefore := none
  scanLimit := 1000

/-- **A search that misses an entry.** -/
theorem list_memory_misses : earlierQuery.check = .ok [] ∧
    ¬ SearchExact earlierQuery [] (runCalls .ascii .sqlite Db.empty sampleMemoryRun) sampleScope
      .ascii .sqlite := by
  refine ⟨by decide +kernel, ?_⟩
  intro h
  have hdiffers : ((((memoryStream (runCalls .ascii .sqlite Db.empty sampleMemoryRun)
      sampleScope).filter (earlierQuery.selects .sqlite)).take 1000).filter
        (matchesDimensions [])).length ≠ (earlierQuery.found [] (runCalls .ascii .sqlite Db.empty sampleMemoryRun)
        sampleScope).length := by decide +kernel
  have hsame := same_of_searchExact (searchInv_run .ascii .sqlite sampleMemoryRun)
    (by decide +kernel) h
  exact hdiffers (congrArg List.length hsame.1)

theorem list_memory_exact_sample :
    SearchExact { earlierQuery with createdAfter := some sampleInstant.stamp } []
      (runCalls .ascii .sqlite Db.empty sampleMemoryRun) sampleScope .ascii .sqlite := by
  have hexact := list_memory_exact .ascii .sqlite sampleMemoryRun sampleScope
    { earlierQuery with createdAfter := some sampleInstant.stamp } [] (by decide +kernel)
  apply hexact.1.mpr
  apply hexact.2
  refine .inr ?_
  intro b hb
  rcases hb with hb | hb
  · cases hb
    rfl
  · cases hb

end Lyte
