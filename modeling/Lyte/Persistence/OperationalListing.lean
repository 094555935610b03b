import Lyte.Lib.Paging
import Lyte.Persistence.OperationalConcurrency
import Lyte.Persistence.Verify

/-
  Lyte.Persistence.OperationalListing — the latest versions of a scope.

  `list_operational` joins the table with a grouped query over it: the greatest
  version of each entity.  The join is on kind, id and version, not on the
  scope, so that rows of other scopes match its groups too; the outer filter
  removes them.

      list_operational_exact   a page is a part of one listing of the entities,
                               in order, each at its greatest version, which
                               `get_operational` returns as well.
-/

namespace Lyte

open Transact Paging

variable {rt : Runtime} {d : Dialect}

/-! ## §1. The query. -/

/-- The order in which the database sorts the strings of a column. -/
abbrev Collation := Paging.Order PyStr

/-- What a listing tells entities apart by. -/
def OperationalRecord.entity (r : OperationalRecord) : PyStr × PyStr := (r.entityKind, r.entityId)

/-- `OperationalRecord.entity_kind == kind`, when a kind is asked for. -/
def OperationalRecord.ofKind (kind : Option OperationalEntityKind) (r : OperationalRecord) : Bool :=
  kind.all (fun k => r.entityKind == k.value)

/-- `latest_query`. -/
def latestQuery (db : Db) (scope : Scope) (kind : Option OperationalEntityKind) :
    List ((PyStr × PyStr) × Option Int) :=
  greatest OperationalRecord.entity OperationalRecord.version
    (db.operational.filter (fun r => r.inScope scope && r.ofKind kind))

/-- The rows of `list_operational`, before OFFSET and LIMIT. -/
def listedOperational (c : Collation) (db : Db) (scope : Scope)
    (kind : Option OperationalEntityKind) : List OperationalRecord :=
  (c.lex c).sort OperationalRecord.entity
    ((joinedRows OperationalRecord.entity OperationalRecord.version db.operational
      (latestQuery db scope kind)).filter (fun r => r.inScope scope))

/-- `list_operational`. -/
def listOperational (c : Collation) (scope : Scope) (kind : Option OperationalEntityKind)
    (limit offset : Int) : StoreProg (List OperationalRecord) :=
  if ¬ (1 ≤ limit ∧ limit ≤ 500) then
    .raise (.valueError (py "limit must be between 1 and 500"))
  else if ¬ (0 ≤ offset ∧ offset ≤ 100000) then
    .raise (.valueError (py "offset must be between 0 and 100000"))
  else readSession do
    assertScope scope
    Body.select (fun db => portion (listedOperational c db scope kind) offset.toNat limit.toNat)

/-! ## §2. Reads of one statement. -/

section Read

variable {α : Type} {db : Db} {scope : Scope}

/-- A read of a scope returns its query's answer, if it returns. -/
theorem exec_scopedRead (q : Db → α) {faults : List (Option Exn)} {a : α}
    (h : ((readSession do
      assertScope scope
      Body.select q : StoreProg α).exec (engine d) (.idle db faults)).1 = .ok a) : a = q db := by
  rcases exec_readSession (engine d) (do
      assertScope scope
      Body.select q : StoreBody α) db faults with ⟨e, fs, hx⟩ | ⟨a', rows, fs, hev, hx⟩
  · rw [hx] at h
    cases h
  · rw [hx] at h
    cases h
    rw [Body.bind_eq, eval_bind, eval_assertScope] at hev
    split at hev
    · next u rows' heq =>
      split at heq
      · cases heq
        have hselect : (Body.select q : StoreBody α).eval (engine d) db [] = .ok (q db, []) := rfl
        rw [hselect] at hev
        cases hev
        rfl
      · cases heq
    · cases hev

/-- And it does return, where no statement fails. -/
theorem exec_scopedRead_noFaults (q : Db → α) (hs : scopeAsserted db scope = true) :
    ((readSession do
      assertScope scope
      Body.select q : StoreProg α).exec (engine d) (.idle db [])).1 = .ok (q db) := by
  have hev : (do
      assertScope scope
      Body.select q : StoreBody α).eval (engine d) db [] = .ok (q db, []) := by
    rw [Body.bind_eq, eval_bind, eval_assertScope, if_pos hs]
    rfl
  rw [exec_readSession_noFaults, hev]

end Read

/-! ## §3. The entities of a scope. -/

section Entities

variable {db : Db} {scope : Scope}

/-- Two rows of one version of an entity of the scope are one row. -/
theorem operational_unique (hi : StoreInv rt db) {a b : OperationalRecord}
    (ha : a ∈ db.operational) (hb : b ∈ db.operational) (hsa : a.inScope scope = true)
    (hsb : b.inScope scope = true) (he : a.entity = b.entity) (hv : a.version = b.version) :
    a = b := by
  obtain ⟨hkind, hid⟩ := Prod.mk.inj he
  have hka := entityVersion_key (mem_entityVersions.mpr ⟨ha, hsa, rfl, rfl⟩)
  have hkb := entityVersion_key (mem_entityVersions.mpr ⟨hb, hsb, rfl, rfl⟩)
  rw [← hkind, ← hid, ← hv] at hkb
  have hrow := row_unique hi (k := .operational) (a := .operational a) (b := .operational b)
    (List.mem_map.mpr ⟨a, ha, rfl⟩) (List.mem_map.mpr ⟨b, hb, rfl⟩) hka hkb
  exact Row.operational.inj hrow

/-- No two rows of the scope are of one version of one entity. -/
theorem operational_pairwise (hi : StoreInv rt db) (scope : Scope) :
    (db.operational.filter (fun r => r.inScope scope)).Pairwise
      (fun a b => ¬ (a.entity = b.entity ∧ a.version = b.version)) := by
  have hpair := hi.unique .operational
  unfold Db.rows at hpair
  rw [List.pairwise_map] at hpair
  refine (hpair.sublist List.filter_sublist).imp_of_mem ?_
  intro a b ha hb hkeys hsame
  obtain ⟨ha, hsa⟩ := List.mem_filter.mp ha
  obtain ⟨hb, hsb⟩ := List.mem_filter.mp hb
  obtain ⟨he, hv⟩ := hsame
  obtain ⟨hkind, hid⟩ := Prod.mk.inj he
  have hka := entityVersion_key (mem_entityVersions.mpr ⟨ha, hsa, rfl, rfl⟩)
  have hkb := entityVersion_key (mem_entityVersions.mpr ⟨hb, hsb, rfl, rfl⟩)
  rw [← hkind, ← hid, ← hv] at hkb
  exact hkeys _ hka hkb

/-- A row of the greatest version is the one that the point lookup finds. -/
theorem latestOperational_of_max (hi : StoreInv rt db) {r : OperationalRecord}
    (hr : r ∈ db.operational) (hs : r.inScope scope = true)
    (hmax : ∀ o ∈ entityVersions db scope r.entityKind r.entityId, o.version ≤ r.version) :
    latestOperational db scope r.entityKind r.entityId = some r := by
  have hmem : r ∈ entityVersions db scope r.entityKind r.entityId :=
    mem_entityVersions.mpr ⟨hr, hs, rfl, rfl⟩
  unfold latestOperational
  cases hl : latestVersion (entityVersions db scope r.entityKind r.entityId) with
  | none =>
    rw [latestVersion_none hl] at hmem
    cases hmem
  | some x =>
    obtain ⟨hx, hxs, hxk, hxi⟩ := mem_entityVersions.mp (latestVersion_mem hl)
    have hle := latestVersion_max hl r hmem
    have hge := hmax x (latestVersion_mem hl)
    have hsame := operational_unique hi hx hr hxs hs (Prod.ext hxk hxi) (by omega)
    rw [hsame]

/-! ## §4. The listing. -/

/-- **What a listing of a scope is**: its entities, one row each, in order. -/
structure Listing (c : Collation) (db : Db) (scope : Scope) (kind : Option OperationalEntityKind)
    (l : List OperationalRecord) : Prop where
  increasing : l.Pairwise (fun a b => (c.lex c).Before a.entity b.entity)
  listed : ∀ r ∈ l, r ∈ db.operational ∧ r.inScope scope = true ∧ r.ofKind kind = true
  greatest : ∀ r ∈ l, ∀ o ∈ entityVersions db scope r.entityKind r.entityId,
    o.version ≤ r.version
  complete : ∀ o ∈ db.operational, o.inScope scope = true → o.ofKind kind = true →
    ∃ r ∈ l, r.entity = o.entity

theorem ofKind_of_entity {kind : Option OperationalEntityKind} {a b : OperationalRecord}
    (h : a.entity = b.entity) : a.ofKind kind = b.ofKind kind := by
  have hkind : a.entityKind = b.entityKind := (Prod.mk.inj h).1
  unfold OperationalRecord.ofKind
  rw [hkind]

theorem mem_listedOperational {c : Collation} {kind : Option OperationalEntityKind}
    {r : OperationalRecord} :
    r ∈ listedOperational c db scope kind ↔ r ∈ db.operational ∧ r.inScope scope = true ∧
      r.ofKind kind = true ∧
      ∀ o ∈ entityVersions db scope r.entityKind r.entityId, o.version ≤ r.version := by
  unfold listedOperational latestQuery
  rw [Order.mem_sort, joinedRows_filter, mem_joinedRows]
  constructor
  · intro h
    obtain ⟨hr, ⟨o, ho, he, _⟩, hmax⟩ := h
    obtain ⟨hr, hs⟩ := List.mem_filter.mp hr
    obtain ⟨_, hcond⟩ := List.mem_filter.mp ho
    have hkind : r.ofKind kind = true := by
      rw [← ofKind_of_entity he]
      exact (Bool.and_eq_true_iff.mp hcond).2
    refine ⟨hr, hs, hkind, ?_⟩
    intro x hx
    obtain ⟨hx, hxs, hxk, hxi⟩ := mem_entityVersions.mp hx
    have hxe : x.entity = r.entity := Prod.ext hxk hxi
    refine hmax x (List.mem_filter.mpr ⟨hx, ?_⟩) hxe
    rw [hxs, ofKind_of_entity hxe, hkind]
    rfl
  · intro h
    obtain ⟨hr, hs, hkind, hmax⟩ := h
    refine ⟨List.mem_filter.mpr ⟨hr, hs⟩, ⟨r, List.mem_filter.mpr ⟨hr, ?_⟩, rfl, rfl⟩, ?_⟩
    · rw [hs, hkind]
      rfl
    · intro o ho he
      obtain ⟨ho, hcond⟩ := List.mem_filter.mp ho
      obtain ⟨hk, hid⟩ := Prod.mk.inj he
      exact hmax o (mem_entityVersions.mpr ⟨ho, (Bool.and_eq_true_iff.mp hcond).1, hk, hid⟩)

/-- A table with a row has one of the greatest version. -/
theorem latestVersion_isSome {os : List OperationalRecord} {o : OperationalRecord} (h : o ∈ os) :
    ∃ r, latestVersion os = some r := by
  cases hl : latestVersion os with
  | none =>
    rw [latestVersion_none hl] at h
    cases h
  | some r => exact ⟨r, rfl⟩

/-- **The query computes the listing.** -/
theorem listing_listedOperational (hi : StoreInv rt db) (c : Collation) (scope : Scope)
    (kind : Option OperationalEntityKind) :
    Listing c db scope kind (listedOperational c db scope kind) where
  increasing := by
    apply Order.sort_increasing
    rw [joinedRows_filter]
    exact joinedRows_pairwise (operational_pairwise hi scope)
  listed r hr := by
    obtain ⟨hmem, hs, hkind, _⟩ := mem_listedOperational.mp hr
    exact ⟨hmem, hs, hkind⟩
  greatest r hr := (mem_listedOperational.mp hr).2.2.2
  complete o ho hs hkind := by
    obtain ⟨r, hl⟩ := latestVersion_isSome (mem_entityVersions.mpr ⟨ho, hs, rfl, rfl⟩ :
      o ∈ entityVersions db scope o.entityKind o.entityId)
    obtain ⟨hr, hrs, hrk, hri⟩ := mem_entityVersions.mp (latestVersion_mem hl)
    have he : r.entity = o.entity := Prod.ext hrk hri
    refine ⟨r, mem_listedOperational.mpr ⟨hr, hrs, ?_, ?_⟩, he⟩
    · rw [ofKind_of_entity he]
      exact hkind
    · rw [hrk, hri]
      exact latestVersion_max hl

end Entities

/-! ## §5. Stored kinds. -/

/-- A row is of a kind that there is. -/
def KindKnown (o : OperationalRecord) : Prop := ∃ k : OperationalEntityKind, k.value = o.entityKind

/-- Statements that add rows of known kinds. -/
def AddsKnown (_ : Db) (ws : List Write) : Prop :=
  ∀ o, Write.addRow (.operational o) ∈ ws → KindKnown o

theorem StoreCall.Commits.addsKnown {c : StoreCall} {db : Db} {ws : List Write} {r : StoreResult}
    (h : c.Commits rt db ws r) : AddsKnown db ws := by
  intro o ho
  obtain ⟨draft, _, _, _, _, _, _, _, _, hrow⟩ := h.drafted ho
  obtain ⟨_, _, _, _, hrow⟩ := operationalRow_ok hrow
  rw [hrow]
  exact ⟨draft.entityKind, rfl⟩

theorem env_known {held : List RowLock} {db db' : Db}
    (h : Env (engine d) index AddsKnown held db db') (hk : ∀ o ∈ db.operational, KindKnown o) :
    ∀ o ∈ db'.operational, KindKnown o := by
  induction h with
  | refl => exact hk
  | commit _ hG _ _ ih =>
    intro o ho
    rcases mem_operational_commit ho with ho | ⟨o', ho', he⟩
    · exact ih o ho
    · rw [he]
      exact hG o' ho'

/-- **Every stored entity is of a known kind.** -/
theorem known_run (calls : List Issued) {db : Db} (hk : ∀ o ∈ db.operational, KindKnown o) :
    ∀ o ∈ (runCalls rt d db calls).operational, KindKnown o := by
  induction calls generalizing db with
  | nil => exact hk
  | cons c calls ih =>
    rw [runCalls_cons]
    apply ih
    obtain ⟨_, htrail, _⟩ := c.exec_outcome rt d (G := AddsKnown) db
      (fun _ _ _ h _ => h.addsKnown) (fun _ _ ho => by cases ho)
    exact env_known htrail.env hk

/-! ## §6. Calls. -/

/-- A call of `list_operational` that returns this page. -/
def ListsPage (d : Dialect) (c : Collation) (db : Db) (scope : Scope)
    (kind : Option OperationalEntityKind) (limit offset : Int) (p : List OperationalRecord) : Prop :=
  ∃ faults, ((listOperational c scope kind limit offset).exec (engine d) (.idle db faults)).1
    = .ok p

section Calls

variable {c : Collation} {db : Db} {scope : Scope} {kind : Option OperationalEntityKind}

/-- A call that returns was admitted, and returns a page of the listing. -/
theorem ListsPage.eq {limit offset : Int} {p : List OperationalRecord}
    (h : ListsPage d c db scope kind limit offset p) :
    1 ≤ limit ∧ 0 ≤ offset ∧
      p = portion (listedOperational c db scope kind) offset.toNat limit.toNat := by
  obtain ⟨faults, h⟩ := h
  unfold listOperational at h
  split at h
  · cases h
  · next hlimit =>
    split at h
    · cases h
    · next hoffset =>
      rw [not_not] at hlimit hoffset
      exact ⟨hlimit.1, hoffset.1, exec_scopedRead _ h⟩

/-- An admitted call returns, where no statement fails. -/
theorem listOperational_returns (hi : StoreInv rt db) (hw : HasWorkspace db scope)
    {limit offset : Int} (hlimit : 1 ≤ limit ∧ limit ≤ 500) (hoffset : 0 ≤ offset ∧ offset ≤ 100000) :
    ((listOperational c scope kind limit offset).exec (engine d) (.idle db [])).1
      = .ok (portion (listedOperational c db scope kind) offset.toNat limit.toNat) := by
  unfold listOperational
  rw [if_neg (not_not.mpr hlimit), if_neg (not_not.mpr hoffset)]
  exact exec_scopedRead_noFaults _ (scopeAsserted_of_hasWorkspace hi hw)

end Calls

/-- **Listing is exact.** -/
structure ListingExact (d : Dialect) (c : Collation) (db : Db) (scope : Scope)
    (kind : Option OperationalEntityKind) (l : List OperationalRecord) : Prop where
  /-- There is one listing of the scope's entities … -/
  listing : Listing c db scope kind l
  /-- … of which every call returns the entries behind its offset … -/
  entries : ∀ limit offset p, ListsPage d c db scope kind limit offset p → ∀ j : Nat,
    p[j]? = if j < limit.toNat then l[offset.toNat + j]? else none
  /-- … and returns, when it is admitted and no statement fails. -/
  returns : HasWorkspace db scope → ∀ limit offset : Int, 1 ≤ limit ∧ limit ≤ 500 →
    0 ≤ offset ∧ offset ≤ 100000 →
    ((listOperational c scope kind limit offset).exec (engine d) (.idle db [])).1
      = .ok (portion l offset.toNat limit.toNat)
  /-- What `get_operational` returns for a listed entity is the listed record … -/
  lookup : ∀ r ∈ l, ∃ k : OperationalEntityKind, k.value = r.entityKind ∧
    (∀ faults x, ((getOperational scope k r.entityId).exec (engine d) (.idle db faults)).1 = .ok x →
      x = some r) ∧
    (HasWorkspace db scope → strip r.entityId ≠ [] →
      ((getOperational scope k r.entityId).exec (engine d) (.idle db [])).1 = .ok (some r))
  /-- … and consecutive pages are the entries that they span, none twice. -/
  pages : ∀ offset stop ps,
    Pages (fun o n p => ListsPage d c db scope kind n o p) offset stop ps →
      ps = portion l offset (stop - offset) ∧ (ps.map OperationalRecord.entity).Nodup

/-- **Operational listing is exact**, in every reachable database. -/
theorem list_operational_exact (rt : Runtime) (d : Dialect) (c : Collation) (calls : List Issued)
    (scope : Scope) (kind : Option OperationalEntityKind) :
    ∃ l, ListingExact d c (runCalls rt d Db.empty calls) scope kind l := by
  have hi : StoreInv rt (runCalls rt d Db.empty calls) := storeInv_run calls (storeInv_empty rt)
  have hknown : ∀ o ∈ (runCalls rt d Db.empty calls).operational, KindKnown o :=
    known_run calls (fun _ ho => by cases ho)
  generalize runCalls rt d Db.empty calls = db at hi hknown
  have hlisting := listing_listedOperational hi c scope kind
  refine ⟨listedOperational c db scope kind, hlisting, ?_, ?_, ?_, ?_⟩
  · intro limit offset p hp j
    rw [hp.eq.2.2, getElem?_portion]
  · intro hw limit offset hlimit hoffset
    exact listOperational_returns hi hw hlimit hoffset
  · intro r hr
    obtain ⟨hmem, hs, _⟩ := hlisting.listed r hr
    obtain ⟨k, hk⟩ := hknown r hmem
    have hlatest := latestOperational_of_max hi hmem hs (hlisting.greatest r hr)
    refine ⟨k, hk, ?_, ?_⟩
    · intro faults x hx
      unfold getOperational at hx
      split at hx
      · cases hx
      · rw [exec_scopedRead _ hx, hk, hlatest]
    · intro hw hid
      unfold getOperational
      rw [if_neg (by simpa using hid),
        exec_scopedRead_noFaults _ (scopeAsserted_of_hasWorkspace hi hw), hk, hlatest]
  · intro offset stop ps hps
    obtain ⟨_, heq⟩ := Pages.eq (l := listedOperational c db scope kind)
      (fun o n p hp => hp.eq.2.2) hps
    refine ⟨heq, ?_⟩
    have hn := Order.nodup_of_increasing (c.lex c) hlisting.increasing
    have hsub : ps.Sublist (listedOperational c db scope kind) := by
      rw [heq]
      exact (List.take_sublist _ _).trans (List.drop_sublist _ _)
    exact hn.sublist (hsub.map _)

end Lyte
