import Lyte.Intelligence.AskGrounding
import Lyte.Intelligence.AskIntents
import Lyte.Persistence.BundleAtomicity
import Mathlib.Data.List.ReduceOption

/-
  Lyte.Intelligence.AskEvidence — what the answers of Ask Lyte cite.

  A handler selects records of the scope, no two of one entity
  (`handlerOf_selects`).  `_receipts_for` cites a record with the receipts that
  are resolved for it, and `_answer` answers only where every record is cited:

      ask_cites_evidence     an answer cites each selected record, with receipts
                             of the scope that are connected to it and compatible
      ask_never_overclaims   and is labelled no stronger than what it cites
-/

namespace Lyte

open Transact Paging Search Tally

/-! ## §1. Rows that are cited. -/

/-- What a handler may select: current records of the scope, no two of one entity. -/
structure Selectable (c : Collation) (db : Db) (scope : Scope) (rows : List OperationalRecord) :
    Prop where
  listed : ∀ row ∈ rows, ∃ kind, row ∈ consulted c db scope kind
  distinct : (rows.map OperationalRecord.entity).Nodup

/-- **A citation supports a record**: it names the record, and every receipt that it lists, of
which there is one, is of the scope, connected to the record and compatible with its label. -/
structure Citation.Supports (db : Db) (scope : Scope) (row : OperationalRecord)
    (citation : Citation) : Prop where
  citationId : citation.citationId = row.recordHash
  sourceRef : citation.sourceRef = row.sourceRef
  truthLabel : citation.truthLabel = row.truthLabel
  cited : citation.evidenceReceiptIds ≠ []
  receipts : ∀ hash ∈ citation.evidenceReceiptIds, ∃ r ∈ db.receipts, r.inScope scope = true ∧
    r.recordHash = hash ∧ CitedFor row r

section Rows

variable {rt : Builtins} {c : Collation} {d : Dialect} {db : Db} {scope : Scope}
variable {rows : List OperationalRecord}

theorem Selectable.byIdentity (h : Selectable c db scope rows) : byIdentity rows = rows := by
  unfold Lyte.byIdentity
  rw [keyed_of_nodup (by simpa using h.distinct), List.nil_append, List.map_map]
  exact List.map_id rows

theorem Selectable.split (h : Selectable c db scope rows) {row : OperationalRecord}
    (hrow : row ∈ rows) : splitRef row.sourceRef = row.entity := by
  obtain ⟨kind, hkind⟩ := h.listed row hrow
  exact splitRef_sourceRef (listed_kind (mem_consulted hkind))

theorem Selectable.single {kind : OperationalEntityKind} {row : OperationalRecord}
    (h : row ∈ consulted c db scope kind) : Selectable c db scope [row] where
  listed := by
    intro r hr
    rw [List.mem_singleton.mp hr]
    exact ⟨kind, h⟩
  distinct := List.pairwise_singleton _ _

theorem Selectable.pair {kind kind' : OperationalEntityKind} (hne : kind ≠ kind')
    {row row' : OperationalRecord} (h : row ∈ consulted c db scope kind)
    (h' : row' ∈ consulted c db scope kind') : Selectable c db scope [row, row'] where
  listed := by
    intro r hr
    rcases List.mem_pair.mp hr with hr | hr
    · rw [hr]
      exact ⟨kind, h⟩
    · rw [hr]
      exact ⟨kind', h'⟩
  distinct := by
    have hentity : row.entity ≠ row'.entity := by
      intro heq
      have hkind : row.entityKind = row'.entityKind := congrArg Prod.fst heq
      rw [listed_kind (mem_consulted h), listed_kind (mem_consulted h')] at hkind
      exact hne (OperationalEntityKind.value_inj hkind)
    simp [hentity]

/-- The citations that a loop over the rows makes, and the hashes in them. -/
def gathered (citations : List (Option Citation)) : List Citation × List PyStr :=
  (citations.reduceOption,
    sortedTexts (citations.reduceOption.flatMap Citation.evidenceReceiptIds).dedup)

theorem citationOf_nil (row : OperationalRecord) : citationOf rt [] row = .ok none := rfl

section Store

variable (hi : StoreInv rt.toRuntime db) (hw : HasWorkspace db scope)

include hi hw

variable (rt d) in
/-- **The citations of distinct rows** are made row by row. -/
theorem receiptsFor_rows (hs : Selectable c db scope rows) : ∃ receipts,
    (∀ r, r ∈ receipts.map Prod.snd ↔ ResolvedFor db scope rows r) ∧
    receiptsFor rt d db scope rows = (rows.mapM (citationOf rt receipts)).map gathered := by
  obtain ⟨receipts, hok, hres⟩ := resolvedReceipts_spec (d := d) hi hw hs.byIdentity
  refine ⟨receipts, hres, ?_⟩
  unfold receiptsFor
  rw [hok]
  show (if receipts.isEmpty then _ else _) = _
  by_cases hempty : receipts.isEmpty = true
  · -- without receipts, no row is cited
    have hnone : ∀ l : List OperationalRecord,
        l.mapM (citationOf rt []) = .ok (l.map (fun _ => none)) := by
      intro l
      induction l with
      | nil => rfl
      | cons row l ih =>
        rw [List.mapM_cons, citationOf_nil, ih]
        rfl
    rw [if_pos hempty, List.isEmpty_iff.mp hempty, hnone]
    show _ = Except.ok (gathered _)
    unfold gathered
    rw [List.map_const', List.reduceOption_replicate_none]
    rfl
  · rw [if_neg hempty, hs.byIdentity]
    cases rows.mapM (citationOf rt receipts) with
    | error e => rfl
    | ok citations => rfl

end Store

/-! ## §2. Answers that are made. -/

/-- A row is cited by what supports it. -/
theorem citationOf_supports {receipts : List (PyStr × ReceiptRecord)}
    (hres : ∀ r, r ∈ receipts.map Prod.snd ↔ ResolvedFor db scope rows r)
    {row : OperationalRecord} {citation : Citation}
    (h : citationOf rt receipts row = .ok (some citation)) : citation.Supports db scope row := by
  unfold citationOf at h
  by_cases hempty : (rowReceipts receipts row).isEmpty = true
  · rw [if_pos hempty] at h
    cases h
  · rw [if_neg hempty] at h
    obtain ⟨t, ht, h⟩ := ok_of_bind h
    cases h
    refine ⟨rfl, rfl, rfl, fun hnil => hempty (List.isEmpty_iff.mpr hnil), ?_⟩
    intro hash hhash
    obtain ⟨r, hr, hcited, hrh⟩ := (mem_rowReceipts hres).mp hhash
    obtain ⟨hstored, hscope⟩ := hr.stored
    exact ⟨r, hstored, hscope, hrh, hcited⟩

/-- **Where all rows are used, all are cited.** -/
theorem cited_of_used (hs : Selectable c db scope rows)
    {receipts : List (PyStr × ReceiptRecord)} {citations : List (Option Citation)}
    (hmade : rows.mapM (citationOf rt receipts) = .ok citations)
    (hused : (usedRows rows citations.reduceOption).length = rows.length) :
    ∀ row ∈ rows, ∃ citation, citationOf rt receipts row = .ok (some citation) := by
  intro row hrow
  unfold usedRows at hused
  have hin := List.length_filter_eq_length_iff.mp hused row hrow
  rw [List.contains_iff_mem, List.mem_map] at hin
  obtain ⟨citation, hcitation, hsplit⟩ := hin
  obtain ⟨row', hrow', hok⟩ := mem_of_mapM hmade (List.reduceOption_mem_iff.mp hcitation)
  -- the citation that names the row was made of it
  rw [(citationOf_some hok).2.2.1, hs.split hrow'] at hsplit
  have hsame : row' = row := List.inj_on_of_nodup_map hs.distinct hrow' hrow hsplit
  rw [← hsame]
  exact ⟨citation, hok⟩

/-- Rows that are cited are used. -/
theorem usedRows_cited {citations : List Citation} (hs : Selectable c db scope rows)
    (hall : List.Forall₂ (Citation.Supports db scope) rows citations) :
    usedRows rows citations = rows := by
  unfold usedRows
  rw [List.filter_eq_self]
  intro row hrow
  rw [List.contains_iff_mem, List.mem_map]
  obtain ⟨citation, hcitation, hsup⟩ := exists_of_forall₂_left hall hrow
  exact ⟨citation, hcitation, by rw [hsup.sourceRef, hs.split hrow]⟩

end Rows

/-- An answer that says nothing. -/
structure EnterpriseAnswer.IsUnavailable (a : EnterpriseAnswer) : Prop where
  answer : a.answer = none
  truthLabel : a.truthLabel = TruthLabel.unavailable.value
  confidence : a.confidence = ⟨0⟩
  citations : a.citations = []
  evidenceReceiptIds : a.evidenceReceiptIds = []
  sourceEntities : a.sourceEntities = []

/-- An answer about what was selected: every record is cited, in order, and the receipts of the
answer are those of its citations. -/
structure Finding.Answered (db : Db) (scope : Scope) (f : Finding) (a : EnterpriseAnswer) :
    Prop where
  answer : a.answer = some f.text
  citations : List.Forall₂ (Citation.Supports db scope) f.rows a.citations
  receipts : ∀ hash, hash ∈ a.evidenceReceiptIds ↔
    ∃ citation ∈ a.citations, hash ∈ citation.evidenceReceiptIds
  once : a.evidenceReceiptIds.Nodup
  sourceEntities : a.sourceEntities = f.rows.map OperationalRecord.sourceRef
  truthLabel : a.truthLabel = answerLabel f.rows f.modeled

theorem unavailableAnswer_isUnavailable (question intent reason : PyStr) (missing : List PyStr) :
    (unavailableAnswer question intent reason missing).IsUnavailable :=
  ⟨rfl, rfl, rfl, rfl, rfl, rfl⟩

section Respond

variable {ar : AskArithmetic} {c : Collation} {d : Dialect} {db : Db} {scope : Scope}
variable (hi : StoreInv ar.toBuiltins.toRuntime db) (hw : HasWorkspace db scope)

include hi hw

/-- **What `_answer` returns.** -/
theorem respond_cases {question : PyStr} {f : Finding} {a : EnterpriseAnswer}
    (hs : Selectable c db scope f.rows)
    (h : respond ar d db scope question (.found f) = .ok a) :
    a.IsUnavailable ∨ f.Answered db scope a := by
  obtain ⟨receipts, hres, hrows⟩ := receiptsFor_rows ar.toBuiltins d hi hw hs
  have hfound : (receiptsFor ar.toBuiltins d db scope f.rows >>= fun found =>
      pure (foundAnswer question f found.1 found.2)) = .ok a := h
  rw [hrows] at hfound
  cases hmade : f.rows.mapM (citationOf ar.toBuiltins receipts) with
  | error e =>
    rw [hmade] at hfound
    cases hfound
  | ok citations =>
    rw [hmade] at hfound
    have hanswer := Except.ok.inj hfound
    unfold foundAnswer at hanswer
    by_cases hempty : ((gathered citations).1.isEmpty || (gathered citations).2.isEmpty) = true
    · rw [if_pos hempty] at hanswer
      rw [← hanswer]
      exact .inl (unavailableAnswer_isUnavailable _ _ _ _)
    rw [if_neg hempty] at hanswer
    by_cases hused : (usedRows f.rows (gathered citations).1).length ≠ f.rows.length
    · rw [if_pos hused] at hanswer
      rw [← hanswer]
      exact .inl (unavailableAnswer_isUnavailable _ _ _ _)
    rw [if_neg hused] at hanswer
    have hcited := cited_of_used hs hmade (not_not.mp hused)
    obtain ⟨made, hmade', hall⟩ := mapM_of_some hcited
    have hcitations : citations = made.map some :=
      Except.ok.inj (hmade.symm.trans hmade')
    have hreduce : citations.reduceOption = made := by
      rw [hcitations, List.reduceOption, List.filterMap_map]
      exact List.filterMap_some
    have hsup : List.Forall₂ (Citation.Supports db scope) f.rows made :=
      hall.imp (fun _ _ hok => citationOf_supports hres hok)
    right
    rw [← hanswer]
    unfold gathered
    rw [hreduce, usedRows_cited hs hsup]
    refine ⟨rfl, hsup, ?_, ?_, rfl, rfl⟩
    · intro hash
      show hash ∈ sortedTexts _ ↔ _
      rw [mem_sortedTexts, List.mem_dedup, List.mem_flatMap]
    · show (sortedTexts _).Nodup
      exact (List.perm_insertionSort _ _).nodup_iff.mpr (List.nodup_dedup _)

end Respond

/-! ## §3. Ranked records. -/

section Ranked

variable {ar : AskArithmetic}

theorem numberOf_finite {body : List (PyStr × Json)} {names : List PyStr} {x : PyFloat}
    (h : numberOf ar body names = .ok (some x)) : x.isFinite = true := by
  have hkept : ∀ y : PyFloat, (if y.isFinite then some y else none) = some x →
      x.isFinite = true := by
    intro y hy
    by_cases hf : y.isFinite = true
    · rw [if_pos hf] at hy
      rw [← Option.some.inj hy]
      exact hf
    · rw [if_neg hf] at hy
      cases hy
  unfold numberOf at h
  cases hv : bodyValue body names with
  | int n =>
    rw [hv] at h
    obtain ⟨y, _, h⟩ := ok_of_bind h
    exact hkept y (Except.ok.inj h)
  | float y =>
    rw [hv] at h
    exact hkept y (Except.ok.inj h)
  | _ =>
    rw [hv] at h
    cases h

theorem numbered_iff {names : List PyStr} {row : OperationalRecord}
    {p : OperationalRecord × PyFloat} : numbered ar names row = .ok (some p) ↔
      p.1 = row ∧ numberOf ar row.body names = .ok (some p.2) := by
  unfold numbered
  constructor
  · intro h
    obtain ⟨x, hx, h⟩ := ok_of_bind h
    cases x with
    | none => cases h
    | some x =>
      cases h
      exact ⟨rfl, hx⟩
  · intro h
    obtain ⟨hrow, hx⟩ := h
    rw [hx, ← hrow]
    rfl

/-- **A row with the greatest number** among those that have one. -/
structure Greatest (ar : AskArithmetic) (names : List PyStr) (rows : List OperationalRecord)
    (row : OperationalRecord) (value : PyFloat) : Prop where
  mem : row ∈ rows
  number : numberOf ar row.body names = .ok (some value)
  greatest : ∀ row' ∈ rows, ∀ x, numberOf ar row'.body names = .ok (some x) →
    value.lt x = false

theorem highest_greatest {names : List PyStr} {rows : List OperationalRecord}
    {ranked : List (Option (OperationalRecord × PyFloat))}
    (hranked : rows.mapM (numbered ar names) = .ok ranked)
    {best : OperationalRecord × PyFloat} (h : highest ranked.reduceOption = some best) :
    Greatest ar names rows best.1 best.2 := by
  have hall : ∀ p ∈ ranked.reduceOption, p.1 ∈ rows ∧
      numberOf ar p.1.body names = .ok (some p.2) := by
    intro p hp
    obtain ⟨row, hrow, hok⟩ := mem_of_mapM hranked (List.reduceOption_mem_iff.mp hp)
    obtain ⟨hrow', hx⟩ := numbered_iff.mp hok
    rw [hrow']
    exact ⟨hrow, hx⟩
  have hbest : firstBest (fun a b : OperationalRecord × PyFloat => b.2.lt a.2)
      ranked.reduceOption = some best := h
  have htop : ∀ p ∈ ranked.reduceOption, best.2.lt p.2 = false := by
    refine firstBest_top (P := fun p => p.2.isFinite = true) ?_ ?_
      (fun p hp => numberOf_finite (hall p hp).2) hbest
    · intro p q hp hq hlt
      rw [PyFloat.lt_iff hq hp] at hlt
      rw [← Bool.not_eq_true, PyFloat.lt_iff hp hq]
      exact not_lt.mpr hlt.le
    · intro p q r hp hq hr hpq hqr
      rw [← Bool.not_eq_true, PyFloat.lt_iff hq hp, not_lt] at hpq
      rw [← Bool.not_eq_true, PyFloat.lt_iff hr hq, not_lt] at hqr
      rw [← Bool.not_eq_true, PyFloat.lt_iff hr hp, not_lt]
      exact hpq.trans hqr
  obtain ⟨hmem, hnumber⟩ := hall best (firstBest_mem hbest)
  refine ⟨hmem, hnumber, ?_⟩
  intro row hrow x hx
  obtain ⟨p, hp, hok⟩ := mapM_mem hranked hrow
  have hsome : numbered ar names row = .ok (some (row, x)) := numbered_iff.mpr ⟨rfl, hx⟩
  rw [hsome] at hok
  cases hok
  exact htop (row, x) (List.reduceOption_mem_iff.mpr hp)

end Ranked

/-! ## §4. Pairs of records by time. -/

section Timed

variable (ar : AskArithmetic) (near : Int → Bool) (deployments laters : List OperationalRecord)

/-- The deployment is of a service that the record names, if it names any. -/
def Related (later deployment : OperationalRecord) : Prop :=
  stringsOf later.body (py "service_ids") = [] ∨
    ∃ service ∈ stringsOf later.body (py "service_ids"),
      Json.get deployment.body (py "service_id") = .str service

/-- **A deployment at or before a record**, near enough and related to it. -/
structure TimedPair.Candidate (p : TimedPair) : Prop where
  later : p.later ∈ laters
  deployment : p.deployment ∈ deployments
  laterTime : recordTime ar p.later = .ok (some p.laterTime)
  deploymentTime : recordTime ar p.deployment = .ok (some p.deploymentTime)
  order : p.deploymentTime ≤ p.laterTime
  near : near p.delta = true
  related : Related p.later p.deployment

/-- No other candidate is closer. -/
structure TimedPair.Closest (p : TimedPair) : Prop where
  candidate : p.Candidate ar near deployments laters
  closest : ∀ q : TimedPair, q.Candidate ar near deployments laters → p.delta ≤ q.delta

variable {ar near deployments laters}

theorem inTexts_iff {texts : List PyStr} {v : Json} :
    inTexts texts v = .ok true ↔ ∃ s ∈ texts, v = .str s := by
  cases v with
  | str s =>
    unfold inTexts
    rw [Except.ok.injEq, List.contains_iff_mem]
    simp
  | _ => simp [inTexts]

theorem isRelated_iff {later deployment : OperationalRecord} :
    isRelated later deployment = .ok true ↔ Related later deployment := by
  unfold isRelated Related
  by_cases hempty : (stringsOf later.body (py "service_ids")).isEmpty = true
  · rw [if_pos hempty]
    exact iff_of_true rfl (.inl (List.isEmpty_iff.mp hempty))
  · rw [if_neg hempty, inTexts_iff]
    constructor
    · exact .inr
    · intro h
      rcases h with h | h
      · exact absurd (List.isEmpty_iff.mpr h) hempty
      · exact h

/-- One turn of the inner loop. -/
theorem precedes_iff {later deployment : OperationalRecord} {laterTime : Int} {p : TimedPair} :
    precedes ar near later laterTime deployment = .ok (some p) ↔
      (p.later = later ∧ p.deployment = deployment ∧ p.laterTime = laterTime) ∧
      recordTime ar deployment = .ok (some p.deploymentTime) ∧ p.deploymentTime ≤ laterTime ∧
      near (laterTime - p.deploymentTime) = true ∧ Related later deployment := by
  unfold precedes
  constructor
  · intro h
    obtain ⟨found, hfound, h⟩ := ok_of_bind h
    cases found with
    | none => cases h
    | some deploymentTime =>
      by_cases horder : laterTime < deploymentTime
      · simp only [if_pos horder] at h
        cases h
      · simp only [if_neg horder] at h
        obtain ⟨related, hrelated, h⟩ := ok_of_bind h
        by_cases hkept : (related && near (laterTime - deploymentTime)) = true
        · rw [if_pos hkept] at h
          cases h
          rw [Bool.and_eq_true] at hkept
          rw [hkept.1] at hrelated
          exact ⟨⟨rfl, rfl, rfl⟩, hfound, not_lt.mp horder, hkept.2, isRelated_iff.mp hrelated⟩
        · rw [if_neg hkept] at h
          cases h
  · intro h
    obtain ⟨⟨hlater, hdeployment, htime⟩, hfound, horder, hnear, hrelated⟩ := h
    rw [hfound]
    simp only [bind, Except.bind, if_neg (not_lt.mpr horder), isRelated_iff.mpr hrelated, hnear,
      Bool.and_self, if_true]
    rw [← hlater, ← hdeployment, ← htime]
    rfl

theorem mem_candidatesOf {candidates : List TimedPair}
    (h : candidatesOf ar near deployments laters = .ok candidates) {p : TimedPair} :
    p ∈ candidates ↔ p.Candidate ar near deployments laters := by
  obtain ⟨pairs, hpairs, h⟩ := ok_of_bind h
  cases h
  rw [List.mem_flatten]
  constructor
  · intro hmem
    obtain ⟨found, hfound, hp⟩ := hmem
    obtain ⟨later, hlater, hok⟩ := mem_of_mapM hpairs hfound
    obtain ⟨time, htime, hok⟩ := ok_of_bind hok
    cases time with
    | none =>
      cases hok
      cases hp
    | some laterTime =>
      obtain ⟨inner, hinner, hok⟩ := ok_of_bind hok
      cases hok
      obtain ⟨deployment, hdeployment, hturn⟩ :=
        mem_of_mapM hinner (List.reduceOption_mem_iff.mp hp)
      obtain ⟨⟨hl, hd, ht⟩, hdtime, horder, hnear, hrelated⟩ := precedes_iff.mp hturn
      rw [← hl] at hlater htime hrelated
      rw [← hd] at hdeployment hdtime hrelated
      rw [← ht] at htime horder hnear
      exact ⟨hlater, hdeployment, htime, hdtime, horder, hnear, hrelated⟩
  · intro hc
    obtain ⟨found, hfound, hok⟩ := mapM_mem hpairs hc.later
    refine ⟨found, hfound, ?_⟩
    unfold candidatesAfter at hok
    rw [hc.laterTime] at hok
    replace hok : (deployments.mapM (precedes ar near p.later p.laterTime) >>= fun pairs =>
        pure pairs.reduceOption) = .ok found := hok
    obtain ⟨inner, hinner, hok⟩ := ok_of_bind hok
    cases hok
    rw [List.reduceOption_mem_iff]
    obtain ⟨turn, hturn, hok⟩ := mapM_mem hinner hc.deployment
    have hsome : precedes ar near p.later p.laterTime p.deployment = .ok (some p) :=
      precedes_iff.mpr ⟨⟨rfl, rfl, rfl⟩, hc.deploymentTime, hc.order, hc.near, hc.related⟩
    rw [hsome] at hok
    cases hok
    exact hturn

theorem closest_closest {candidates : List TimedPair}
    (h : candidatesOf ar near deployments laters = .ok candidates) {p : TimedPair}
    (hp : closest candidates = some p) : p.Closest ar near deployments laters := by
  constructor
  · exact (mem_candidatesOf h).mp (firstBest_mem hp)
  · have hbest : firstBest (fun a b : TimedPair => decide (a.delta < b.delta)) candidates =
        some p := hp
    have htop : ∀ q ∈ candidates, decide (q.delta < p.delta) = false := by
      refine firstBest_top (P := fun _ => True) ?_ ?_ (fun _ _ => trivial) hbest
      · intro x y _ _ hlt
        exact decide_eq_false (not_lt.mpr (of_decide_eq_true hlt).le)
      · intro x y z _ _ _ hxy hyz
        have hyx := not_lt.mp (of_decide_eq_false hxy)
        have hzy := not_lt.mp (of_decide_eq_false hyz)
        exact decide_eq_false (not_lt.mpr (hzy.trans hyx))
    intro q hq
    exact not_lt.mp (of_decide_eq_false (htop q ((mem_candidatesOf h).mpr hq)))

end Timed

/-! ## §5. What the handlers select. -/

section Handlers

variable {ar : AskArithmetic} {c : Collation} {d : Dialect} {db : Db} {scope : Scope}
variable (hi : StoreInv ar.toBuiltins.toRuntime db) (hw : HasWorkspace db scope)
variable {f : Finding}

include hi hw

theorem checkout_found (h : checkoutRevenueRisk ar c d db scope = .ok (.found f)) :
    ∃ row value, f = checkoutFinding ar row value ∧
      Greatest ar [py "revenue_at_risk_usd", py "revenue_at_risk"]
        ((consulted c db scope .businessOutcome).filter (isCheckout ar)) row value := by
  unfold checkoutRevenueRisk at h
  rw [loadRecords_eq hi hw] at h
  obtain ⟨rows, hrows, h⟩ := ok_of_bind h
  cases hrows
  obtain ⟨ranked, hranked, h⟩ := ok_of_bind h
  cases hbest : highest ranked.reduceOption with
  | none =>
    rw [hbest] at h
    cases h
  | some best =>
    rw [hbest] at h
    cases h
    exact ⟨best.1, best.2, rfl, highest_greatest hranked hbest⟩

theorem burn_found (h : highestErrorBudgetBurn ar c d db scope = .ok (.found f)) :
    ∃ row value, f = burnFinding ar row value ∧
      Greatest ar [py "error_budget_burn", py "burn_rate"] (consulted c db scope .service)
        row value := by
  unfold highestErrorBudgetBurn at h
  rw [loadRecords_eq hi hw] at h
  obtain ⟨rows, hrows, h⟩ := ok_of_bind h
  cases hrows
  obtain ⟨ranked, hranked, h⟩ := ok_of_bind h
  cases hbest : highest ranked.reduceOption with
  | none =>
    rw [hbest] at h
    cases h
  | some best =>
    rw [hbest] at h
    cases h
    exact ⟨best.1, best.2, rfl, highest_greatest hranked hbest⟩

theorem agent_found (h : agentCostReliability ar c d db scope = .ok (.found f)) :
    ∃ best, f = agentFinding ar best ∧ best.row ∈ consulted c db scope .agentTraceSummary := by
  unfold agentCostReliability at h
  rw [loadRecords_eq hi hw] at h
  obtain ⟨rows, hrows, h⟩ := ok_of_bind h
  cases hrows
  obtain ⟨ranked, hranked, h⟩ := ok_of_bind h
  cases hbest : firstBest (fun a b : AgentRank => b.score.lt a.score) ranked.reduceOption with
  | none =>
    rw [hbest] at h
    cases h
  | some best =>
    rw [hbest] at h
    cases h
    refine ⟨best, rfl, ?_⟩
    obtain ⟨row, hrow, hok⟩ :=
      mem_of_mapM hranked (List.reduceOption_mem_iff.mp (firstBest_mem hbest))
    unfold rankAgent at hok
    obtain ⟨cost, _, hok⟩ := ok_of_bind hok
    obtain ⟨failure, _, hok⟩ := ok_of_bind hok
    obtain ⟨success, _, hok⟩ := ok_of_bind hok
    obtain ⟨_, _, _, _, hrank⟩ := Option.map₂_eq_some_iff.mp (Except.ok.inj hok)
    rw [← hrank]
    exact hrow

theorem journey_found (h : preJourneyChange ar c d db scope = .ok (.found f)) :
    ∃ p : TimedPair, f = journeyFinding ar p ∧ p.Closest ar (fun _ => true)
      (consulted c db scope .deploymentEvent)
      ((consulted c db scope .customerJourney).filter (degraded ar)) := by
  unfold preJourneyChange at h
  rw [loadRecords_eq hi hw, loadRecords_eq hi hw] at h
  obtain ⟨journeys, hjourneys, h⟩ := ok_of_bind h
  cases hjourneys
  obtain ⟨deployments, hdeployments, h⟩ := ok_of_bind h
  cases hdeployments
  obtain ⟨candidates, hcandidates, h⟩ := ok_of_bind h
  cases hp : closest candidates with
  | none =>
    rw [hp] at h
    cases h
  | some p =>
    rw [hp] at h
    cases h
    exact ⟨p, rfl, closest_closest hcandidates hp⟩

theorem incident_found (h : incidentDeploymentCorrelation ar c d db scope = .ok (.found f)) :
    ∃ p : TimedPair, f = incidentFinding ar p ∧ p.Closest ar (fun delta => delta ≤ 86400000000)
      (consulted c db scope .deploymentEvent) (consulted c db scope .incident) := by
  unfold incidentDeploymentCorrelation at h
  rw [loadRecords_eq hi hw, loadRecords_eq hi hw] at h
  obtain ⟨incidents, hincidents, h⟩ := ok_of_bind h
  cases hincidents
  obtain ⟨deployments, hdeployments, h⟩ := ok_of_bind h
  cases hdeployments
  obtain ⟨candidates, hcandidates, h⟩ := ok_of_bind h
  cases hp : closest candidates with
  | none =>
    rw [hp] at h
    cases h
  | some p =>
    rw [hp] at h
    cases h
    exact ⟨p, rfl, closest_closest hcandidates hp⟩

theorem review_found (h : operatorReviewPriority ar c d db scope = .ok (.found f)) :
    ∃ row kind, row ∈ consulted c db scope kind ∧ f.rows = [row] ∧ f.modeled = false := by
  unfold operatorReviewPriority at h
  rw [loadRecords_eq hi hw] at h
  obtain ⟨rows, hrows, h⟩ := ok_of_bind h
  cases hrows
  cases hreview : (consulted c db scope .recommendation).findSome?
      (fun row => (reviewOf row).map (reviewFinding row)) with
  | some found =>
    rw [hreview] at h
    cases h
    obtain ⟨row, hrow, hfound⟩ := List.exists_of_findSome?_eq_some hreview
    obtain ⟨review, _, hf⟩ := Option.map_eq_some_iff.mp hfound
    rw [← hf]
    exact ⟨row, .recommendation, hrow, rfl, rfl⟩
  | none =>
    rw [hreview] at h
    replace h : decisionReply ar c d db scope = .ok (.found f) := h
    unfold decisionReply at h
    rw [loadRecords_eq hi hw] at h
    obtain ⟨rows, hrows, h⟩ := ok_of_bind h
    cases hrows
    obtain ⟨decisions, hdecisions, h⟩ := ok_of_bind h
    cases decisions with
    | nil => cases h
    | cons row decisions =>
      cases h
      exact ⟨row, .decision, (mem_of_keepOk hdecisions List.mem_cons_self).1, rfl, rfl⟩

theorem formulas_found (h : evidenceAndFormulas c d db scope = .ok (.found f)) :
    ∃ row kind, row ∈ consulted c db scope kind ∧ f = formulasFinding row := by
  unfold evidenceAndFormulas at h
  rw [loadRecords_eq hi hw, loadRecords_eq hi hw, loadRecords_eq hi hw] at h
  obtain ⟨outcomes, houtcomes, h⟩ := ok_of_bind h
  cases houtcomes
  obtain ⟨services, hservices, h⟩ := ok_of_bind h
  cases hservices
  obtain ⟨journeys, hjourneys, h⟩ := ok_of_bind h
  cases hjourneys
  dsimp only at h
  cases hrow : (consulted c db scope .businessOutcome ++ consulted c db scope .service ++
      consulted c db scope .customerJourney).find? (fun row => !(formulaIdsOf row).isEmpty) with
  | none =>
    rw [hrow] at h
    cases h
  | some row =>
    rw [hrow] at h
    cases h
    have hmem := List.mem_of_find?_eq_some hrow
    rw [List.mem_append, List.mem_append] at hmem
    rcases hmem with (hmem | hmem) | hmem
    · exact ⟨row, _, hmem, rfl⟩
    · exact ⟨row, _, hmem, rfl⟩
    · exact ⟨row, _, hmem, rfl⟩

omit hi hw in
/-- What a pair is made of. -/
theorem pairOf_selects {verifications : List OperationalRecord} {action : OperationalRecord}
    {p : OperationalRecord × OperationalRecord}
    (h : pairOf ar.toBuiltins d db scope verifications action = .ok (some p)) :
    p.1 = action ∧ p.2 ∈ verifications := by
  unfold pairOf at h
  split at h
  · cases h
  obtain ⟨execution, _, h⟩ := ok_of_bind h
  split at h
  · cases h
  split at h
  · cases h
  obtain ⟨executedAt, _, h⟩ := ok_of_bind h
  unfold verificationsSince at h
  split at h
  · cases h
  obtain ⟨verification, hfirst, h⟩ := ok_of_bind h
  obtain ⟨v, hv, hp⟩ := Option.map_eq_some_iff.mp (Except.ok.inj h)
  rw [hv] at hfirst
  obtain ⟨before, w, after, hl, _, hw⟩ := firstOk_some_iff.mp hfirst
  have hsame : v = w := by
    unfold outcomeOf at hw
    split at hw
    · cases hw
    split at hw
    · cases hw
    obtain ⟨outcome, _, hw⟩ := ok_of_bind hw
    split at hw
    · cases hw
    split at hw
    · cases hw
    obtain ⟨windowStart, _, hw⟩ := ok_of_bind hw
    obtain ⟨windowEnd, _, hw⟩ := ok_of_bind hw
    have hkept := Except.ok.inj hw
    split at hkept
    · exact (Option.some.inj hkept).symm
    · cases hkept
  rw [← hp, hsame, hl]
  exact ⟨rfl, by simp⟩

theorem pair_found (h : postActionReply ar c d db scope = .ok (.found f)) :
    ∃ action verification, f = pairFinding action verification ∧
      action ∈ consulted c db scope .actionRequest ∧
      verification ∈ consulted c db scope .outcomeVerification := by
  unfold postActionReply at h
  rw [loadRecords_eq hi hw, loadRecords_eq hi hw] at h
  obtain ⟨rows, hrows, h⟩ := ok_of_bind h
  cases hrows
  obtain ⟨actions, hactions, h⟩ := ok_of_bind h
  obtain ⟨rows, hrows, h⟩ := ok_of_bind h
  cases hrows
  obtain ⟨verifications, hverifications, h⟩ := ok_of_bind h
  obtain ⟨selected, hselected, h⟩ := ok_of_bind h
  cases selected with
  | none => cases h
  | some p =>
    cases h
    obtain ⟨before, action, after, hl, _, hp⟩ := firstOk_some_iff.mp hselected
    obtain ⟨haction, hverification⟩ := pairOf_selects hp
    have hmem : action ∈ actions := by
      rw [hl]
      simp
    refine ⟨p.1, p.2, rfl, ?_, (mem_of_keepOk hverifications hverification).1⟩
    rw [haction]
    exact (mem_of_keepOk hactions hmem).1

/-- **Every handler selects records** of the scope that it looked at. -/
theorem handlerOf_selects {intent : Intent}
    (h : handlerOf ar c d db scope intent = .ok (.found f)) :
    Selectable c db scope f.rows ∧ f.rows ≠ [] := by
  cases intent with
  | postActionOutcome =>
    obtain ⟨action, verification, hf, ha, hv⟩ := pair_found hi hw h
    rw [hf]
    exact ⟨.pair (by decide) ha hv, List.cons_ne_nil _ _⟩
  | evidenceAndFormulas =>
    obtain ⟨row, kind, hrow, hf⟩ := formulas_found hi hw h
    rw [hf]
    exact ⟨.single hrow, List.cons_ne_nil _ _⟩
  | operatorReviewPriority =>
    obtain ⟨row, kind, hrow, hrows, -⟩ := review_found hi hw h
    rw [hrows]
    exact ⟨.single hrow, List.cons_ne_nil _ _⟩
  | incidentDeploymentCorrelation =>
    obtain ⟨p, hf, hp⟩ := incident_found hi hw h
    rw [hf]
    exact ⟨.pair (by decide) hp.candidate.deployment hp.candidate.later, List.cons_ne_nil _ _⟩
  | agentCostReliability =>
    obtain ⟨best, hf, hrow⟩ := agent_found hi hw h
    rw [hf]
    exact ⟨.single hrow, List.cons_ne_nil _ _⟩
  | preJourneyChange =>
    obtain ⟨p, hf, hp⟩ := journey_found hi hw h
    rw [hf]
    exact ⟨.pair (by decide) hp.candidate.deployment (List.mem_filter.mp hp.candidate.later).1,
      List.cons_ne_nil _ _⟩
  | highestErrorBudgetBurn =>
    obtain ⟨row, value, hf, hrow⟩ := burn_found hi hw h
    rw [hf]
    exact ⟨.single hrow.mem, List.cons_ne_nil _ _⟩
  | checkoutRevenueRisk =>
    obtain ⟨row, value, hf, hrow⟩ := checkout_found hi hw h
    rw [hf]
    exact ⟨.single (List.mem_filter.mp hrow.mem).1, List.cons_ne_nil _ _⟩
  | unsupported => cases h

/-- **What a question is answered with.** -/
theorem ask_answered {question : PyStr} {a : EnterpriseAnswer}
    (h : askEnterprise ar c d db scope question = .ok a) (hne : a.answer ≠ none) :
    ∃ q f, cleanQuestion ar.toBuiltins question = .ok q ∧
      handlerOf ar c d db scope (intentOf q.2) = .ok (.found f) ∧ f.Answered db scope a := by
  rw [askEnterprise_eq] at h
  obtain ⟨q, hq, h⟩ := ok_of_bind h
  obtain ⟨reply, hreply, h⟩ := ok_of_bind h
  cases reply with
  | unavailable intent reason missing =>
    cases h
    exact absurd rfl hne
  | found f =>
    rcases respond_cases hi hw (handlerOf_selects hi hw hreply).1 h with hnone | hsome
    · exact absurd hnone.answer hne
    · exact ⟨q, f, hq, hreply, hsome⟩

/-- Where nothing is answered, nothing is claimed. -/
theorem ask_unanswered {question : PyStr} {a : EnterpriseAnswer}
    (h : askEnterprise ar c d db scope question = .ok a) (hnull : a.answer = none) :
    a.IsUnavailable := by
  rw [askEnterprise_eq] at h
  obtain ⟨q, hq, h⟩ := ok_of_bind h
  obtain ⟨reply, hreply, h⟩ := ok_of_bind h
  cases reply with
  | unavailable intent reason missing =>
    cases h
    exact unavailableAnswer_isUnavailable _ _ _ _
  | found f =>
    rcases respond_cases hi hw (handlerOf_selects hi hw hreply).1 h with hnone | hsome
    · exact hnone
    · rw [hsome.answer] at hnull
      cases hnull

end Handlers

/-! ## §6. Answers. -/

section Answers

variable (ar : AskArithmetic) (c : Collation) (d : Dialect) (db : Db) (scope : Scope)

/-- **Ask Lyte never answers without evidence.**  An answer cites every record that its handler
selected, in order, each with receipts of the scope that are connected to it and compatible
with its label, and carries exactly these receipts; otherwise it says nothing. -/
theorem ask_cites_evidence (hi : StoreInv ar.toBuiltins.toRuntime db) (hw : HasWorkspace db scope)
    (question : PyStr) (a : EnterpriseAnswer)
    (h : askEnterprise ar c d db scope question = .ok a) :
    (a.answer = none → a.IsUnavailable) ∧
    (a.answer ≠ none → ∃ q f, cleanQuestion ar.toBuiltins question = .ok q ∧
      handlerOf ar c d db scope (intentOf q.2) = .ok (.found f) ∧ f.rows ≠ [] ∧
      Selectable c db scope f.rows ∧ f.Answered db scope a) := by
  refine ⟨ask_unanswered hi hw h, ?_⟩
  intro hne
  obtain ⟨q, f, hq, hf, ha⟩ := ask_answered hi hw h hne
  obtain ⟨hs, hrows⟩ := handlerOf_selects hi hw hf
  exact ⟨q, f, hq, hf, hrows, hs, ha⟩

/-- The numbers that the ranking handlers read, and the records that they rank. -/
def rankedNames (intent : Intent) : List PyStr :=
  if intent = .checkoutRevenueRisk then [py "revenue_at_risk_usd", py "revenue_at_risk"]
  else [py "error_budget_burn", py "burn_rate"]

def rankedRows (intent : Intent) : List OperationalRecord :=
  if intent = .checkoutRevenueRisk then
    (consulted c db scope .businessOutcome).filter (isCheckout ar)
  else consulted c db scope .service

/-- **A ranking answer is about the greatest number**: no record that was ranked has a greater
one than the record it names. -/
theorem ask_names_greatest (hi : StoreInv ar.toBuiltins.toRuntime db) (hw : HasWorkspace db scope)
    (question : PyStr) (q : PyStr × PyStr) (hq : cleanQuestion ar.toBuiltins question = .ok q)
    (hintent : intentOf q.2 = .checkoutRevenueRisk ∨ intentOf q.2 = .highestErrorBudgetBurn)
    (a : EnterpriseAnswer) (h : askEnterprise ar c d db scope question = .ok a)
    (hne : a.answer ≠ none) :
    ∃ row value, Greatest ar (rankedNames (intentOf q.2)) (rankedRows ar c db scope (intentOf q.2))
      row value ∧ a.sourceEntities = [row.sourceRef] := by
  obtain ⟨q', f, hq', hf, ha⟩ := ask_answered hi hw h hne
  rw [hq] at hq'
  cases hq'
  rcases hintent with hintent | hintent
  · rw [hintent] at hf ⊢
    obtain ⟨row, value, hfound, hrow⟩ := checkout_found hi hw hf
    refine ⟨row, value, hrow, ?_⟩
    rw [ha.sourceEntities, hfound]
    rfl
  · rw [hintent] at hf ⊢
    obtain ⟨row, value, hfound, hrow⟩ := burn_found hi hw hf
    refine ⟨row, value, hrow, ?_⟩
    rw [ha.sourceEntities, hfound]
    rfl

/-- The records that deployments are compared with, and how near they have to be. -/
def timedRows (intent : Intent) : List OperationalRecord :=
  if intent = .preJourneyChange then (consulted c db scope .customerJourney).filter (degraded ar)
  else consulted c db scope .incident

def timedWindow (intent : Intent) (delta : Int) : Bool :=
  intent == .preJourneyChange || delta ≤ 86400000000

/-- **An answer by time is about the closest deployment**: it is at or before the record, of a
service of it and within the window, and no other such pair of the records is closer. -/
theorem ask_names_closest (hi : StoreInv ar.toBuiltins.toRuntime db) (hw : HasWorkspace db scope)
    (question : PyStr) (q : PyStr × PyStr) (hq : cleanQuestion ar.toBuiltins question = .ok q)
    (hintent : intentOf q.2 = .preJourneyChange ∨ intentOf q.2 = .incidentDeploymentCorrelation)
    (a : EnterpriseAnswer) (h : askEnterprise ar c d db scope question = .ok a)
    (hne : a.answer ≠ none) :
    ∃ p : TimedPair, p.Closest ar (timedWindow (intentOf q.2))
      (consulted c db scope .deploymentEvent) (timedRows ar c db scope (intentOf q.2)) ∧
      a.sourceEntities = [p.deployment.sourceRef, p.later.sourceRef] := by
  obtain ⟨q', f, hq', hf, ha⟩ := ask_answered hi hw h hne
  rw [hq] at hq'
  cases hq'
  rcases hintent with hintent | hintent
  · rw [hintent] at hf ⊢
    obtain ⟨p, hfound, hp⟩ := journey_found hi hw hf
    refine ⟨p, hp, ?_⟩
    rw [ha.sourceEntities, hfound]
    rfl
  · rw [hintent] at hf ⊢
    obtain ⟨p, hfound, hp⟩ := incident_found hi hw hf
    refine ⟨p, hp, ?_⟩
    rw [ha.sourceEntities, hfound]
    rfl

end Answers

/-! ## §7. A service, and a deployment before an incident. -/

def AskArithmetic.terse : AskArithmetic where
  toRuntime := .terse
  reprOf _ := .ok []
  upper := List.map asciiUpper
  lower := List.map asciiLower
  add := Arithmetic.binary64.add
  sub := Arithmetic.binary64.sub
  mul := Arithmetic.binary64.mul
  div := Arithmetic.binary64.div
  sqrt := Arithmetic.binary64.sqrt
  log := Arithmetic.binary64.log
  log2 := Arithmetic.binary64.log2
  ofInt := Arithmetic.binary64.ofInt
  divInt := Arithmetic.binary64.divInt
  round4 := Arithmetic.binary64.round4
  fsum := Arithmetic.binary64.fsum
  ofRat := Arithmetic.binary64.ofRat
  toDecimal := Arithmetic.binary64.toDecimal
  toDecimal_zero := Arithmetic.binary64.toDecimal_zero
  toDecimal_one := Arithmetic.binary64.toDecimal_one
  format _ _ := []

/-- A record that was observed at the sample instant, with the reference `r`. -/
def terseRecord (kind : OperationalEntityKind) (body : JsonDict) : OperationalRecordDraft :=
  ⟨kind, [105], [110], body, .measured, [[114]], none, some sampleInstant.stamp, .empty⟩

/-- A receipt with that reference, and then records. -/
def terseRun (drafts : List OperationalRecordDraft) : List Issued :=
  terseSetup ++ ⟨⟨.appendReceipt terseScope ⟨[97], [97], [97], .empty, .measured, [[114]]⟩ none
    none, .terse [99], .terse [99]⟩, []⟩ ::
  drafts.zipIdx.map (fun p => ⟨⟨.upsertOperational terseScope p.1 none none,
    .terse [100 + p.2], .terse [100 + p.2]⟩, []⟩)

def terseDb (drafts : List OperationalRecordDraft) : Db :=
  runCalls .terse .sqlite Db.empty (terseRun drafts)

def terseAsk (drafts : List OperationalRecordDraft) (question : PyStr) :
    Except Exn EnterpriseAnswer :=
  askEnterprise .terse .codePoints .sqlite (terseDb drafts) terseScope question

theorem terseDb_storeInv (drafts : List OperationalRecordDraft) :
    StoreInv .terse (terseDb drafts) :=
  storeInv_run (terseRun drafts) (storeInv_empty .terse)

theorem terseDb_hasWorkspace (drafts : List OperationalRecordDraft) :
    HasWorkspace (terseDb drafts) terseScope := by
  have hsetup : HasWorkspace (runCalls .terse .sqlite Db.empty terseSetup) terseScope :=
    ⟨⟨[119], [116], [119], [119], Dialect.sqlite.stamp sampleInstant.stamp⟩,
      by decide +kernel, rfl, rfl⟩
  unfold terseDb terseRun
  rw [runCalls_append]
  exact hasWorkspace_run hsetup _

theorem answered_of_isSome {x : Except Exn EnterpriseAnswer}
    (h : x.toOption.map (fun a => a.answer.isSome) = some true) :
    ∃ a, x = .ok a ∧ a.answer ≠ none := by
  cases x with
  | error e => cases h
  | ok a => exact ⟨a, rfl, Option.isSome_iff_ne_none.mp (Option.some.inj h)⟩

def burnQuestion : PyStr := py "error budget service"

def burnDrafts : List OperationalRecordDraft :=
  [terseRecord .service ⟨[(py "burn_rate", .float .one)], rfl⟩]

theorem burn_answered : ∃ a, terseAsk burnDrafts burnQuestion = .ok a ∧ a.answer ≠ none := by
  apply answered_of_isSome
  decide +kernel

theorem ask_cites_evidence_sample : ∃ a, terseAsk burnDrafts burnQuestion = .ok a ∧
    ∃ f : Finding, f.rows ≠ [] ∧ f.Answered (terseDb burnDrafts) terseScope a := by
  obtain ⟨a, ha, hne⟩ := burn_answered
  obtain ⟨-, hfound⟩ := ask_cites_evidence .terse .codePoints .sqlite (terseDb burnDrafts)
    terseScope (terseDb_storeInv _) (terseDb_hasWorkspace _) burnQuestion a ha
  obtain ⟨_, f, _, _, hrows, _, hanswered⟩ := hfound hne
  exact ⟨a, ha, f, hrows, hanswered⟩

theorem ask_names_greatest_sample : ∃ a, terseAsk burnDrafts burnQuestion = .ok a ∧
    ∃ row : OperationalRecord, a.sourceEntities = [row.sourceRef] := by
  obtain ⟨a, ha, hne⟩ := burn_answered
  obtain ⟨row, _, _, hentity⟩ := ask_names_greatest .terse .codePoints .sqlite
    (terseDb burnDrafts) terseScope (terseDb_storeInv _) (terseDb_hasWorkspace _) burnQuestion
    (burnQuestion, burnQuestion) (by decide +kernel) (.inr (by decide +kernel)) a ha hne
  exact ⟨a, ha, row, hentity⟩

def incidentQuestion : PyStr := py "deployment incident"

def incidentDrafts : List OperationalRecordDraft :=
  [terseRecord .deploymentEvent .empty, terseRecord .incident .empty]

theorem incident_answered :
    ∃ a, terseAsk incidentDrafts incidentQuestion = .ok a ∧ a.answer ≠ none := by
  apply answered_of_isSome
  decide +kernel

theorem ask_names_closest_sample : ∃ a, terseAsk incidentDrafts incidentQuestion = .ok a ∧
    ∃ p : TimedPair, a.sourceEntities = [p.deployment.sourceRef, p.later.sourceRef] := by
  obtain ⟨a, ha, hne⟩ := incident_answered
  obtain ⟨p, _, hentities⟩ := ask_names_closest .terse .codePoints .sqlite
    (terseDb incidentDrafts) terseScope (terseDb_storeInv _) (terseDb_hasWorkspace _)
    incidentQuestion (incidentQuestion, incidentQuestion) (by decide +kernel)
    (.inr (by decide +kernel)) a ha hne
  exact ⟨a, ha, p, hentities⟩

end Lyte
