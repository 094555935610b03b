import Lyte.Domain.Spellings
import Lyte.Intelligence.EnterpriseAsk

/-
  Lyte.Intelligence.AskGrounding — post-action answers and their evidence.

  The search takes the first action and the first verification whose receipts
  bear them out, so that whatever is answered is grounded in a linked pair
  (`LinkedPair`), unconditionally.  Two things can still go wrong, and
  `EvidenceInReach` says exactly when: a time that has no UTC datetime makes the
  search raise where there is nothing to find, and a receipt behind the first 20
  references of its record is linked but not cited.

      post_action_grounded   grounded always; cited, and null elsewhere, exactly
                             if the evidence is in reach.
-/

namespace Lyte

open Transact Paging Search Tally

/-! ## §1. Grounds. -/

section Grounds

variable (rt : Builtins) (c : Collation) (db : Db) (scope : Scope)

/-- The records of a kind that the engine looks at. -/
def consulted (kind : OperationalEntityKind) : List OperationalRecord :=
  (portion (listedOperational c db scope (some kind)) 0 50).filter OperationalRecord.available

/-- The state of a record can be spelled. -/
def Spelled (r : OperationalRecord) : Prop := ∃ state, rt.textOf r.body (py "state") [] = .ok state

/-- A filter on a record and its state, where the state can be spelled. -/
def keepsState (keep : OperationalRecord → PyStr → Bool) (r : OperationalRecord) : Bool :=
  (rt.textOf r.body (py "state") []).toOption.any (fun state => keep r (rt.upper state))

def actionsOf : List OperationalRecord :=
  (consulted c db scope .actionRequest).filter (keepsState rt executedAction)

def verificationsOf : List OperationalRecord :=
  (consulted c db scope .outcomeVerification).filter (keepsState rt verifiedOutcome)

/-- `e` is the receipt of the execution of `a`. -/
structure ExecutionReceipt (a : OperationalRecord) (e : ReceiptRecord) : Prop where
  hash : digestAt a.body (py "execution_receipt_hash") = some e.recordHash
  stored : findReceipt db scope e.recordHash = some e
  executes : executes a e.recordHash e = true

/-- `o` is the receipt of the outcome that `v` verifies, of the execution that `e` is of. -/
structure OutcomeReceipt (a : OperationalRecord) (e : ReceiptRecord) (v : OperationalRecord)
    (o : ReceiptRecord) : Prop where
  hash : digestAt v.body (py "outcome_receipt_hash") = some o.recordHash
  verification : verifiesAction a e.recordHash v o.recordHash = true
  stored : findReceipt db scope o.recordHash = some o
  verifies : verifies a e.recordHash v o = true

/-- The receipts are linked to the records and to each other, and the window is after the
execution. -/
structure LinkedPair (a v : OperationalRecord) (e o : ReceiptRecord) : Prop where
  execution : ExecutionReceipt db scope a e
  outcome : OutcomeReceipt db scope a e v o
  window : ∃ executedAt windowStart windowEnd,
    witnessTime rt (Json.get e.payload (py "executed_at")) = .ok (some executedAt) ∧
    witnessTime rt (Json.get o.payload (py "window_start")) = .ok (some windowStart) ∧
    witnessTime rt (Json.get o.payload (py "window_end")) = .ok (some windowEnd) ∧
    executedAt ≤ windowStart ∧ windowStart < windowEnd

/-- **Grounds of an answer**: a measured action of the scope that was executed and not
simulated, a measured verification of it, and their linked receipts. -/
structure GroundedIn (a v : OperationalRecord) (e o : ReceiptRecord) : Prop where
  action : a ∈ listedOperational c db scope (some .actionRequest)
  executed : keepsState rt executedAction a = true
  verification : v ∈ listedOperational c db scope (some .outcomeVerification)
  verified : keepsState rt verifiedOutcome v = true
  linked : LinkedPair rt db scope a v e o

/-! ## §2. Times. -/

/-- The time, if it is one, has a UTC datetime. -/
def Converts (value : Json) : Prop := ∃ t, witnessTime rt value = .ok t

/-- The time of execution converts. -/
def ExecutionConverts (a : OperationalRecord) : Prop :=
  ∀ e, ExecutionReceipt db scope a e → Converts rt (Json.get e.payload (py "executed_at"))

/-- The times of the window, where they are read, convert. -/
def WindowConverts (a v : OperationalRecord) : Prop :=
  ∀ e t, ExecutionReceipt db scope a e →
    witnessTime rt (Json.get e.payload (py "executed_at")) = .ok (some t) →
    ∀ o, OutcomeReceipt db scope a e v o → Converts rt (Json.get o.payload (py "window_start")) ∧
      Converts rt (Json.get o.payload (py "window_end"))

/-- The pair is passed over. -/
structure PairPassed (a v : OperationalRecord) : Prop where
  converts : WindowConverts rt db scope a v
  unlinked : ∀ e o, ¬ LinkedPair rt db scope a v e o

/-- The action is passed over. -/
structure ActionPassed (a : OperationalRecord) : Prop where
  converts : ExecutionConverts rt db scope a
  pairs : ∀ v ∈ verificationsOf rt c db scope, PairPassed rt db scope a v

/-- The first linked pair; what is before it is passed over. -/
def FirstLinked (a v : OperationalRecord) : Prop :=
  ∃ before after, actionsOf rt c db scope = before ++ a :: after ∧
    (∀ x ∈ before, ActionPassed rt c db scope x) ∧
    ∃ before' after', verificationsOf rt c db scope = before' ++ v :: after' ∧
      (∀ y ∈ before', PairPassed rt db scope a y) ∧ ∃ e o, LinkedPair rt db scope a v e o

/-! ## §3. Receipts that are resolved. -/

/-- A receipt is found through the first 20 references of one of the records: its digest is
one of them, or it shares another with them and is one of the first 100 of the scope. -/
def ResolvedFor (rows : List OperationalRecord) (r : ReceiptRecord) : Prop :=
  (∃ row ∈ rows, r.recordHash ∈ row.refs.take 20 ∧ isSha256Hex r.recordHash = true ∧
    findReceipt db scope r.recordHash = some r) ∨
  (r ∈ portion (chainedReceipts db scope) 0 100 ∧ ∃ row ∈ rows, ∃ ref ∈ row.refs.take 20,
    isSha256Hex ref = false ∧ ref ∈ r.refs)

/-- A receipt may be cited for a record. -/
def CitedFor (row : OperationalRecord) (r : ReceiptRecord) : Prop :=
  compatibleReceipt row r = true ∧
    (r.recordHash ∈ row.refs ∨ ∃ ref ∈ r.refs, ref ∈ row.refs)

/-- Every record has a receipt to be cited with. -/
def Covered (rows : List OperationalRecord) : Prop :=
  ∀ row ∈ rows, ∃ r, ResolvedFor db scope rows r ∧ CitedFor row r

/-- Every record has a time to be cited with. -/
def Dated (rows : List OperationalRecord) : Prop := ∀ row ∈ rows, ∃ t, observedTime rt row = .ok t

end Grounds

/-! ## §4. Reads. -/

section Reads

variable {rt : Builtins} {c : Collation} {d : Dialect} {db : Db} {scope : Scope}
variable (hi : StoreInv rt.toRuntime db) (hw : HasWorkspace db scope)

include hi hw

theorem read_getReceipt {hash : PyStr} (h : isSha256Hex hash = true) :
    db.read d (getReceipt scope hash) = .ok (findReceipt db scope hash) := by
  unfold Db.read getReceipt
  rw [h, if_neg (by decide)]
  exact exec_scopedRead_noFaults _ (scopeAsserted_of_hasWorkspace hi hw)

theorem read_listReceipts : db.read d (listReceipts scope 100 0) =
    .ok (portion (chainedReceipts db scope) 0 100) := by
  unfold Db.read listReceipts
  rw [if_neg (by decide), if_neg (by decide)]
  exact exec_scopedRead_noFaults _ (scopeAsserted_of_hasWorkspace hi hw)

theorem loadRecords_eq (kind : OperationalEntityKind) :
    loadRecords c d db scope kind = .ok (consulted c db scope kind) := by
  unfold loadRecords Db.read
  rw [listOperational_returns hi hw ⟨by decide, by decide⟩ ⟨by decide, by decide⟩]
  rfl

end Reads

/-! ## §5. The search. -/

section Search

variable {rt : Builtins} {c : Collation} {d : Dialect} {db : Db} {scope : Scope}

theorem digestAt_hex {body : List (PyStr × Json)} {key digest : PyStr}
    (h : digestAt body key = some digest) : isSha256Hex digest = true := by
  unfold digestAt at h
  split at h
  · rw [Option.ite_none_right_eq_some] at h
    rw [← Option.some.inj h.2]
    exact h.1
  · cases h

theorem inWindow_iff {executedAt : Int} {windowStart windowEnd : Option Int} :
    inWindow executedAt windowStart windowEnd = true ↔ ∃ s t, windowStart = some s ∧
      windowEnd = some t ∧ executedAt ≤ s ∧ s < t := by
  unfold inWindow
  cases windowStart with
  | none => simp
  | some s =>
    cases windowEnd with
    | none => simp
    | some t => simp

/-- A pair has one execution receipt, and one outcome receipt. -/
theorem ExecutionReceipt.unique {a : OperationalRecord} {e e' : ReceiptRecord}
    (h : ExecutionReceipt db scope a e) (h' : ExecutionReceipt db scope a e') : e = e' := by
  have hhash := Option.some.inj (h.hash.symm.trans h'.hash)
  have hstored := h.stored
  rw [hhash, h'.stored] at hstored
  exact (Option.some.inj hstored).symm

theorem OutcomeReceipt.unique {a v : OperationalRecord} {e o o' : ReceiptRecord}
    (h : OutcomeReceipt db scope a e v o) (h' : OutcomeReceipt db scope a e v o') : o = o' := by
  have hhash := Option.some.inj (h.hash.symm.trans h'.hash)
  have hstored := h.stored
  rw [hhash, h'.stored] at hstored
  exact (Option.some.inj hstored).symm

variable (hi : StoreInv rt.toRuntime db) (hw : HasWorkspace db scope)

include hi hw

/-- **One turn of the loop over verifications**, given an outcome receipt. -/
theorem outcomeOf_of_outcome {a v : OperationalRecord} {e o : ReceiptRecord} {executedAt : Int}
    (ho : OutcomeReceipt db scope a e v o) :
    outcomeOf rt d db scope a e.recordHash executedAt v = (do
      let windowStart ← witnessTime rt (Json.get o.payload (py "window_start"))
      let windowEnd ← witnessTime rt (Json.get o.payload (py "window_end"))
      return if inWindow executedAt windowStart windowEnd then some v else none) := by
  unfold outcomeOf
  rw [ho.hash]
  simp only
  rw [ho.verification, if_neg (by decide), read_getReceipt hi hw (digestAt_hex ho.hash), ho.stored]
  show (if !verifies a e.recordHash v o then _ else _) = _
  rw [ho.verifies, if_neg (by decide)]

/-- And without one. -/
theorem outcomeOf_of_none {a v : OperationalRecord} {e : ReceiptRecord} {executedAt : Int}
    (hnone : ∀ o, ¬ OutcomeReceipt db scope a e v o) :
    outcomeOf rt d db scope a e.recordHash executedAt v = .ok none := by
  unfold outcomeOf
  cases hdigest : digestAt v.body (py "outcome_receipt_hash") with
  | none => rfl
  | some outcomeHash =>
    simp only
    by_cases hverification : verifiesAction a e.recordHash v outcomeHash = true
    · rw [hverification, if_neg (by decide), read_getReceipt hi hw (digestAt_hex hdigest)]
      cases hfound : findReceipt db scope outcomeHash with
      | none => rfl
      | some o =>
        show (if !verifies a e.recordHash v o then _ else _) = _
        rw [if_pos]
        · rfl
        · rw [Bool.not_eq_true']
          by_contra hverifies
          rw [Bool.not_eq_false] at hverifies
          have hhash := (findReceipt_some hfound).2.2
          rw [← hhash] at hdigest hverification hfound
          exact hnone o ⟨hdigest, hverification, hfound, hverifies⟩
    · rw [Bool.not_eq_true] at hverification
      rw [hverification, if_pos (by decide)]

theorem outcomeOf_none_iff {a v : OperationalRecord} {e : ReceiptRecord} {executedAt : Int}
    (he : ExecutionReceipt db scope a e)
    (ht : witnessTime rt (Json.get e.payload (py "executed_at")) = .ok (some executedAt)) :
    outcomeOf rt d db scope a e.recordHash executedAt v = .ok none ↔
      PairPassed rt db scope a v := by
  by_cases hex : ∃ o, OutcomeReceipt db scope a e v o
  · obtain ⟨o, ho⟩ := hex
    rw [outcomeOf_of_outcome hi hw ho]
    constructor
    · intro h
      obtain ⟨windowStart, hstart, h⟩ := ok_of_bind h
      obtain ⟨windowEnd, hend, h⟩ := ok_of_bind h
      have hout : inWindow executedAt windowStart windowEnd = false := by
        by_contra hin
        rw [Bool.not_eq_false] at hin
        rw [hin] at h
        cases h
      constructor
      · intro e' t he' _ o' ho'
        rw [he'.unique he] at ho'
        rw [ho'.unique ho]
        exact ⟨⟨_, hstart⟩, ⟨_, hend⟩⟩
      · intro e' o' hl
        have hee := hl.execution.unique he
        have ho' := hl.outcome
        obtain ⟨t, s, u, htt, hs, hu, hts, hsu⟩ := hl.window
        rw [hee] at ho' htt
        rw [ho'.unique ho] at hs hu
        rw [ht] at htt
        rw [hstart] at hs
        rw [hend] at hu
        have hin : inWindow executedAt windowStart windowEnd = true := by
          rw [inWindow_iff]
          refine ⟨s, u, Except.ok.inj hs, Except.ok.inj hu, ?_, hsu⟩
          rw [Option.some.inj (Except.ok.inj htt)]
          exact hts
        rw [hin] at hout
        cases hout
    · intro hp
      obtain ⟨⟨windowStart, hstart⟩, ⟨windowEnd, hend⟩⟩ := hp.converts e executedAt he ht o ho
      rw [hstart, hend]
      have hout : inWindow executedAt windowStart windowEnd = false := by
        by_contra hin
        rw [Bool.not_eq_false, inWindow_iff] at hin
        obtain ⟨s, u, hs, hu, hts, hsu⟩ := hin
        rw [hs] at hstart
        rw [hu] at hend
        exact hp.unlinked e o ⟨he, ho, executedAt, s, u, ht, hstart, hend, hts, hsu⟩
      show Except.ok (if inWindow executedAt windowStart windowEnd then some v else none) = _
      rw [hout]
      rfl
  · have hnone : ∀ o, ¬ OutcomeReceipt db scope a e v o := fun o ho => hex ⟨o, ho⟩
    rw [outcomeOf_of_none hi hw hnone]
    constructor
    · intro _
      constructor
      · intro e' t he' _ o' ho'
        rw [he'.unique he] at ho'
        exact absurd ho' (hnone o')
      · intro e' o' hl
        have ho' := hl.outcome
        rw [hl.execution.unique he] at ho'
        exact hnone o' ho'
    · intro _
      rfl

theorem outcomeOf_some_iff {a v w : OperationalRecord} {e : ReceiptRecord} {executedAt : Int}
    (he : ExecutionReceipt db scope a e)
    (ht : witnessTime rt (Json.get e.payload (py "executed_at")) = .ok (some executedAt)) :
    outcomeOf rt d db scope a e.recordHash executedAt v = .ok (some w) ↔
      w = v ∧ ∃ e o, LinkedPair rt db scope a v e o := by
  constructor
  · intro h
    by_cases hex : ∃ o, OutcomeReceipt db scope a e v o
    · obtain ⟨o, ho⟩ := hex
      rw [outcomeOf_of_outcome hi hw ho] at h
      obtain ⟨windowStart, hstart, h⟩ := ok_of_bind h
      obtain ⟨windowEnd, hend, h⟩ := ok_of_bind h
      by_cases hin : inWindow executedAt windowStart windowEnd = true
      · rw [if_pos hin] at h
        cases h
        obtain ⟨s, u, hs, hu, hts, hsu⟩ := inWindow_iff.mp hin
        rw [hs] at hstart
        rw [hu] at hend
        exact ⟨rfl, e, o, he, ho, executedAt, s, u, ht, hstart, hend, hts, hsu⟩
      · rw [if_neg hin] at h
        cases h
    · rw [outcomeOf_of_none hi hw (fun o ho => hex ⟨o, ho⟩)] at h
      cases h
  · intro h
    obtain ⟨hwv, e', o, hl⟩ := h
    have ho := hl.outcome
    obtain ⟨t, s, u, htt, hs, hu, hts, hsu⟩ := hl.window
    rw [hl.execution.unique he] at ho htt
    rw [ht] at htt
    rw [outcomeOf_of_outcome hi hw ho, hs, hu, hwv]
    have hin : inWindow executedAt (some s) (some u) = true := by
      rw [inWindow_iff]
      refine ⟨s, u, rfl, rfl, ?_, hsu⟩
      rw [Option.some.inj (Except.ok.inj htt)]
      exact hts
    show Except.ok (if inWindow executedAt (some s) (some u) then some v else none) = _
    rw [hin]
    rfl

theorem pairOf_of_execution {a : OperationalRecord} {e : ReceiptRecord}
    {verifications : List OperationalRecord} (he : ExecutionReceipt db scope a e) :
    pairOf rt d db scope verifications a = (do
      let executedAt ← witnessTime rt (Json.get e.payload (py "executed_at"))
      verificationsSince rt d db scope verifications a e.recordHash executedAt) := by
  unfold pairOf
  rw [he.hash]
  simp only
  rw [read_getReceipt hi hw (digestAt_hex he.hash), he.stored]
  show (if !executes a e.recordHash e then _ else _) = _
  rw [he.executes, if_neg (by decide)]

theorem pairOf_of_none {a : OperationalRecord} {verifications : List OperationalRecord}
    (hnone : ∀ e, ¬ ExecutionReceipt db scope a e) :
    pairOf rt d db scope verifications a = .ok none := by
  unfold pairOf
  cases hdigest : digestAt a.body (py "execution_receipt_hash") with
  | none => rfl
  | some executionHash =>
    simp only
    rw [read_getReceipt hi hw (digestAt_hex hdigest)]
    cases hfound : findReceipt db scope executionHash with
    | none => rfl
    | some e =>
      show (if !executes a executionHash e then _ else _) = _
      rw [if_pos]
      · rfl
      · rw [Bool.not_eq_true']
        by_contra hexecutes
        rw [Bool.not_eq_false] at hexecutes
        have hhash := (findReceipt_some hfound).2.2
        rw [← hhash] at hdigest hexecutes hfound
        exact hnone e ⟨hdigest, hfound, hexecutes⟩

/-- **An action is passed over** exactly if nothing linked to it is found, and nothing raises. -/
theorem pairOf_none_iff {a : OperationalRecord} :
    pairOf rt d db scope (verificationsOf rt c db scope) a = .ok none ↔
      ActionPassed rt c db scope a := by
  by_cases hex : ∃ e, ExecutionReceipt db scope a e
  · obtain ⟨e, he⟩ := hex
    rw [pairOf_of_execution hi hw he]
    constructor
    · intro h
      obtain ⟨executedAt, ht, h⟩ := ok_of_bind h
      constructor
      · intro e' he'
        rw [he'.unique he]
        exact ⟨_, ht⟩
      · intro v hv
        cases executedAt with
        | none =>
          -- there is no time of execution, so that no window is looked at
          have hno : ∀ e' t, ExecutionReceipt db scope a e' →
              witnessTime rt (Json.get e'.payload (py "executed_at")) ≠ .ok (some t) := by
            intro e' t he' ht'
            rw [he'.unique he, ht] at ht'
            cases ht'
          constructor
          · intro e' t he' ht'
            exact absurd ht' (hno e' t he')
          · intro e' o hl
            obtain ⟨t, _, _, ht', _⟩ := hl.window
            exact hno e' t hl.execution ht'
        | some executedAt =>
          obtain ⟨found, hfirst, h⟩ := ok_of_bind h
          cases found with
          | some w => cases h
          | none => exact (outcomeOf_none_iff hi hw he ht).mp (firstOk_none_iff.mp hfirst v hv)
    · intro hp
      obtain ⟨executedAt, ht⟩ := hp.converts e he
      rw [ht]
      cases executedAt with
      | none => rfl
      | some executedAt =>
        have hfirst : firstOk (outcomeOf rt d db scope a e.recordHash executedAt)
            (verificationsOf rt c db scope) = .ok none :=
          firstOk_none_iff.mpr (fun v hv => (outcomeOf_none_iff hi hw he ht).mpr (hp.pairs v hv))
        show (do
          let verification ← firstOk (outcomeOf rt d db scope a e.recordHash executedAt)
            (verificationsOf rt c db scope)
          return verification.map (fun v => (a, v)) : Except Exn _) = _
        rw [hfirst]
        rfl
  · have hnone : ∀ e, ¬ ExecutionReceipt db scope a e := fun e he => hex ⟨e, he⟩
    rw [pairOf_of_none hi hw hnone]
    constructor
    · intro _
      constructor
      · intro e he
        exact absurd he (hnone e)
      · intro v _
        constructor
        · intro e t he
          exact absurd he (hnone e)
        · intro e o hl
          exact hnone e hl.execution
    · intro _
      rfl

theorem pairOf_some_iff {a : OperationalRecord} {p : OperationalRecord × OperationalRecord} :
    pairOf rt d db scope (verificationsOf rt c db scope) a = .ok (some p) ↔
      ∃ v before after, p = (a, v) ∧ verificationsOf rt c db scope = before ++ v :: after ∧
        (∀ y ∈ before, PairPassed rt db scope a y) ∧ ∃ e o, LinkedPair rt db scope a v e o := by
  constructor
  · intro h
    by_cases hex : ∃ e, ExecutionReceipt db scope a e
    · obtain ⟨e, he⟩ := hex
      rw [pairOf_of_execution hi hw he] at h
      obtain ⟨executedAt, ht, h⟩ := ok_of_bind h
      cases executedAt with
      | none => cases h
      | some executedAt =>
        obtain ⟨found, hfirst, h⟩ := ok_of_bind h
        cases found with
        | none => cases h
        | some w =>
          cases h
          obtain ⟨before, v, after, hlist, hbefore, hv⟩ := firstOk_some_iff.mp hfirst
          obtain ⟨rfl, hlinked⟩ := (outcomeOf_some_iff hi hw he ht).mp hv
          exact ⟨w, before, after, rfl, hlist,
            fun y hy => (outcomeOf_none_iff hi hw he ht).mp (hbefore y hy), hlinked⟩
    · rw [pairOf_of_none hi hw (fun e he => hex ⟨e, he⟩)] at h
      cases h
  · intro h
    obtain ⟨v, before, after, hp, hlist, hbefore, e, o, hl⟩ := h
    obtain ⟨executedAt, _, _, ht, _⟩ := hl.window
    have hfirst : firstOk (outcomeOf rt d db scope a e.recordHash executedAt)
        (verificationsOf rt c db scope) = .ok (some v) :=
      firstOk_some_iff.mpr ⟨before, v, after, hlist,
        fun y hy => (outcomeOf_none_iff hi hw hl.execution ht).mpr (hbefore y hy),
        (outcomeOf_some_iff hi hw hl.execution ht).mpr ⟨rfl, e, o, hl⟩⟩
    rw [pairOf_of_execution hi hw hl.execution, ht]
    show (do
      let verification ← firstOk (outcomeOf rt d db scope a e.recordHash executedAt)
        (verificationsOf rt c db scope)
      return verification.map (fun v => (a, v)) : Except Exn _) = _
    rw [hfirst, hp]
    rfl

/-- **The search takes the first linked pair.** -/
theorem selected_some_iff {a v : OperationalRecord} :
    firstOk (pairOf rt d db scope (verificationsOf rt c db scope)) (actionsOf rt c db scope) =
      .ok (some (a, v)) ↔ FirstLinked rt c db scope a v := by
  rw [firstOk_some_iff]
  unfold FirstLinked
  constructor
  · intro h
    obtain ⟨before, a', after, hlist, hbefore, ha'⟩ := h
    obtain ⟨v', before', after', hp, hlist', hbefore', hl⟩ := (pairOf_some_iff hi hw).mp ha'
    cases hp
    exact ⟨before, after, hlist, fun x hx => (pairOf_none_iff hi hw).mp (hbefore x hx),
      before', after', hlist', hbefore', hl⟩
  · intro h
    obtain ⟨before, after, hlist, hbefore, before', after', hlist', hbefore', hl⟩ := h
    exact ⟨before, a, after, hlist, fun x hx => (pairOf_none_iff hi hw).mpr (hbefore x hx),
      (pairOf_some_iff hi hw).mpr ⟨v, before', after', rfl, hlist', hbefore', hl⟩⟩

theorem selected_none_iff :
    firstOk (pairOf rt d db scope (verificationsOf rt c db scope)) (actionsOf rt c db scope) =
      .ok none ↔ ∀ a ∈ actionsOf rt c db scope, ActionPassed rt c db scope a := by
  rw [firstOk_none_iff]
  constructor
  · intro h a ha
    exact (pairOf_none_iff hi hw).mp (h a ha)
  · intro h a ha
    exact (pairOf_none_iff hi hw).mpr (h a ha)

end Search

/-! ## §6. The receipts of a pair. -/

section Evidence

variable {rt : Builtins} {c : Collation} {d : Dialect} {db : Db} {scope : Scope}

/-- A dict of receipts of the scope, by hash. -/
def ByHash (db : Db) (scope : Scope) (receipts : List (PyStr × ReceiptRecord)) : Prop :=
  ∀ p ∈ receipts, p.1 = p.2.recordHash ∧ p.2 ∈ db.receipts ∧ p.2.inScope scope = true

theorem mem_chainedReceipts {r : ReceiptRecord} :
    r ∈ chainedReceipts db scope ↔ r ∈ db.receipts ∧ r.inScope scope = true := by
  unfold chainedReceipts
  rw [List.mem_insertionSort, List.mem_filter]

theorem mem_portion_receipts {r : ReceiptRecord}
    (h : r ∈ portion (chainedReceipts db scope) 0 100) :
    r ∈ db.receipts ∧ r.inScope scope = true :=
  mem_chainedReceipts.mp (List.mem_of_mem_drop (List.mem_of_mem_take h))

theorem ResolvedFor.stored {rows : List OperationalRecord} {r : ReceiptRecord}
    (h : ResolvedFor db scope rows r) : r ∈ db.receipts ∧ r.inScope scope = true := by
  rcases h with h | h
  · obtain ⟨_, _, _, _, hfound⟩ := h
    have hstored := findReceipt_some hfound
    exact ⟨hstored.1, hstored.2.1⟩
  · exact mem_portion_receipts h.1

/-- A reference of one of the records that is looked at. -/
def Looked (rows : List OperationalRecord) (ref : PyStr) : Prop :=
  ∃ row ∈ rows, ref ∈ row.refs.take 20

theorem mem_citedRefs {rows : List OperationalRecord} (hrows : byIdentity rows = rows)
    {ref : PyStr} : ref ∈ citedRefs rows ↔ Looked rows ref := by
  unfold citedRefs
  rw [hrows]
  exact List.mem_flatMap

theorem mem_unresolvedRefs {rows : List OperationalRecord} (hrows : byIdentity rows = rows)
    {ref : PyStr} : ref ∈ unresolvedRefs rows ↔ Looked rows ref ∧ isSha256Hex ref = false := by
  unfold unresolvedRefs
  rw [List.mem_filter, mem_citedRefs hrows, Bool.not_eq_true']

theorem sharesRef_iff {unresolved : List PyStr} {r : ReceiptRecord} :
    sharesRef unresolved r = true ↔ ∃ ref ∈ unresolved, ref ∈ r.refs := by
  unfold sharesRef
  rw [List.any_eq_true]
  simp

section Store

variable (hi : StoreInv rt.toRuntime db) (hw : HasWorkspace db scope)

include hi

/-- In such a dict, a receipt is there if its hash is. -/
theorem ByHash.mem {receipts : List (PyStr × ReceiptRecord)} (h : ByHash db scope receipts)
    {r : ReceiptRecord} (hr : r ∈ db.receipts) (hs : r.inScope scope = true) :
    r ∈ receipts.map Prod.snd ↔ r.recordHash ∈ receipts.map Prod.fst := by
  constructor
  · intro hmem
    obtain ⟨p, hp, rfl⟩ := List.mem_map.mp hmem
    rw [← (h p hp).1]
    exact List.mem_map_of_mem hp
  · intro hmem
    obtain ⟨p, hp, hk⟩ := List.mem_map.mp hmem
    obtain ⟨hhash, hin, hscope⟩ := h p hp
    have hsame : p.2 = r := receipt_unique hi hin hr hscope hs (hhash.symm.trans hk)
    rw [← hsame]
    exact List.mem_map_of_mem hp

/-- The receipts found by their digests. -/
theorem direct_iff {rows : List OperationalRecord} {direct : List (PyStr × ReceiptRecord)}
    (hby : ByHash db scope direct)
    (hkeys : ∀ k, k ∈ direct.map Prod.fst ↔ Looked rows k ∧ isSha256Hex k = true ∧
      (findReceipt db scope k).isSome = true) (r : ReceiptRecord) :
    r ∈ direct.map Prod.snd ↔ ∃ row ∈ rows, r.recordHash ∈ row.refs.take 20 ∧
      isSha256Hex r.recordHash = true ∧ findReceipt db scope r.recordHash = some r := by
  constructor
  · intro hmem
    obtain ⟨p, hp, rfl⟩ := List.mem_map.mp hmem
    obtain ⟨hhash, hin, hscope⟩ := hby p hp
    obtain ⟨⟨row, hrow, href⟩, hhex, hsome⟩ := (hkeys p.1).mp (List.mem_map_of_mem hp)
    obtain ⟨r, hfound⟩ := Option.isSome_iff_exists.mp hsome
    obtain ⟨hr, hrs, hrh⟩ := findReceipt_some hfound
    have hsame : r = p.2 := receipt_unique hi hr hin hrs hscope (hrh.trans hhash)
    rw [hhash] at href hhex hfound
    rw [hsame] at hfound
    exact ⟨row, hrow, href, hhex, hfound⟩
  · intro h
    obtain ⟨row, hrow, href, hhex, hfound⟩ := h
    obtain ⟨hr, hrs, -⟩ := findReceipt_some hfound
    rw [hby.mem hi hr hrs, hkeys]
    exact ⟨⟨row, hrow, href⟩, hhex, by rw [hfound]; rfl⟩

include hw

theorem receiptsOfRefs_spec (refs : List PyStr) {receipts : List (PyStr × ReceiptRecord)}
    (h : ByHash db scope receipts) : ∃ receipts',
      receiptsOfRefs d db scope refs receipts = .ok receipts' ∧ ByHash db scope receipts' ∧
      ∀ k, k ∈ receipts'.map Prod.fst ↔ k ∈ receipts.map Prod.fst ∨
        (k ∈ refs ∧ isSha256Hex k = true ∧ (findReceipt db scope k).isSome = true) := by
  induction refs generalizing receipts with
  | nil => exact ⟨receipts, rfl, h, by simp⟩
  | cons ref refs ih =>
    by_cases hhex : isSha256Hex ref = true
    · cases hfound : findReceipt db scope ref with
      | none =>
        obtain ⟨receipts', hok, hby, hkeys⟩ := ih h
        refine ⟨receipts', ?_, hby, ?_⟩
        · unfold receiptsOfRefs
          rw [if_pos hhex, read_getReceipt hi hw hhex, hfound]
          exact hok
        · intro k
          rw [hkeys, List.mem_cons]
          constructor
          · intro hk
            exact hk.imp_right (fun hk => ⟨.inr hk.1, hk.2⟩)
          · intro hk
            apply hk.imp_right
            intro hk
            obtain ⟨hk | hk, hkhex, hsome⟩ := hk
            · rw [hk, hfound] at hsome
              cases hsome
            · exact ⟨hk, hkhex, hsome⟩
      | some r =>
        obtain ⟨hr, hscope, hhash⟩ := findReceipt_some hfound
        have hby' : ByHash db scope (upsert receipts r.recordHash (fun _ => r)) := by
          intro p hp
          rcases mem_upsert hp with hp | hp
          · exact h p hp
          · rw [hp]
            exact ⟨rfl, hr, hscope⟩
        obtain ⟨receipts', hok, hby, hkeys⟩ := ih hby'
        refine ⟨receipts', ?_, hby, ?_⟩
        · unfold receiptsOfRefs
          rw [if_pos hhex, read_getReceipt hi hw hhex, hfound]
          exact hok
        · intro k
          rw [hkeys, key_upsert, hhash, List.mem_cons]
          constructor
          · intro hk
            rcases hk with (hk | hk) | hk
            · exact .inl hk
            · rw [hk]
              exact .inr ⟨.inl rfl, hhex, by rw [hfound]; rfl⟩
            · exact .inr ⟨.inr hk.1, hk.2⟩
          · intro hk
            rcases hk with hk | ⟨hk | hk, hkhex, hsome⟩
            · exact .inl (.inl hk)
            · exact .inl (.inr hk)
            · exact .inr ⟨hk, hkhex, hsome⟩
    · obtain ⟨receipts', hok, hby, hkeys⟩ := ih h
      refine ⟨receipts', ?_, hby, ?_⟩
      · unfold receiptsOfRefs
        rw [if_neg hhex]
        exact hok
      · intro k
        rw [hkeys, List.mem_cons]
        constructor
        · intro hk
          exact hk.imp_right (fun hk => ⟨.inr hk.1, hk.2⟩)
        · intro hk
          apply hk.imp_right
          intro hk
          obtain ⟨hk | hk, hkhex, hsome⟩ := hk
          · rw [hk] at hkhex
            exact absurd hkhex hhex
          · exact ⟨hk, hkhex, hsome⟩

/-- **The receipts of `_receipts_for`.** -/
theorem resolvedReceipts_spec {rows : List OperationalRecord} (hrows : byIdentity rows = rows) :
    ∃ receipts, resolvedReceipts d db scope rows = .ok receipts ∧
      ∀ r, r ∈ receipts.map Prod.snd ↔ ResolvedFor db scope rows r := by
  have hnone : ByHash db scope [] := by
    intro p hp
    cases hp
  obtain ⟨direct, hok, hby, hdirect⟩ := receiptsOfRefs_spec (d := d) hi hw (citedRefs rows) hnone
  have hkeys : ∀ k, k ∈ direct.map Prod.fst ↔ Looked rows k ∧ isSha256Hex k = true ∧
      (findReceipt db scope k).isSome = true := by
    intro k
    rw [hdirect, mem_citedRefs hrows]
    simp
  have hmem := direct_iff hi hby hkeys
  unfold resolvedReceipts
  rw [hok]
  by_cases hempty : (unresolvedRefs rows).isEmpty = true
  · refine ⟨direct, if_pos hempty, ?_⟩
    intro r
    rw [hmem]
    constructor
    · exact .inl
    · intro h
      rcases h with h | h
      · exact h
      · -- every reference that is looked at is a digest
        obtain ⟨_, row, hrow, ref, href, hhex, _⟩ := h
        have hin := (mem_unresolvedRefs hrows).mpr ⟨⟨row, hrow, href⟩, hhex⟩
        rw [List.isEmpty_iff.mp hempty] at hin
        cases hin
  · refine ⟨keyed (fun r : ReceiptRecord => r.recordHash) direct
      ((portion (chainedReceipts db scope) 0 100).filter (sharesRef (unresolvedRefs rows))),
      ?_, ?_⟩
    · show (if _ then _ else _) = _
      rw [if_neg hempty, read_listReceipts hi hw]
      rfl
    · intro r
      have hfallback : ∀ r', r' ∈ (portion (chainedReceipts db scope) 0 100).filter
          (sharesRef (unresolvedRefs rows)) ↔ r' ∈ portion (chainedReceipts db scope) 0 100 ∧
            ∃ row ∈ rows, ∃ ref ∈ row.refs.take 20, isSha256Hex ref = false ∧ ref ∈ r'.refs := by
        intro r'
        rw [List.mem_filter, sharesRef_iff]
        apply and_congr_right
        intro _
        constructor
        · intro h
          obtain ⟨ref, href, hin⟩ := h
          obtain ⟨⟨row, hrow, hlook⟩, hhex⟩ := (mem_unresolvedRefs hrows).mp href
          exact ⟨row, hrow, ref, hlook, hhex, hin⟩
        · intro h
          obtain ⟨row, hrow, ref, hlook, hhex, hin⟩ := h
          exact ⟨ref, (mem_unresolvedRefs hrows).mpr ⟨⟨row, hrow, hlook⟩, hhex⟩, hin⟩
      have hby' : ByHash db scope (keyed (fun r : ReceiptRecord => r.recordHash) direct
          ((portion (chainedReceipts db scope) 0 100).filter
            (sharesRef (unresolvedRefs rows)))) := by
        intro p hp
        rcases mem_keyed hp with hp | hp
        · exact hby p hp
        · obtain ⟨r, hr, rfl⟩ := hp
          exact ⟨rfl, mem_portion_receipts (List.mem_filter.mp hr).1⟩
      constructor
      · intro hin
        obtain ⟨p, hp, rfl⟩ := List.mem_map.mp hin
        rcases mem_keyed hp with hp | hp
        · exact .inl ((hmem p.2).mp (List.mem_map_of_mem hp))
        · obtain ⟨r, hr, rfl⟩ := hp
          exact .inr ((hfallback r).mp hr)
      · intro hres
        obtain ⟨hr, hrs⟩ := hres.stored
        rw [hby'.mem hi hr hrs, key_keyed]
        rcases hres with h | h
        · left
          exact (hby.mem hi hr hrs).mp ((hmem r).mpr h)
        · right
          exact List.mem_map_of_mem ((hfallback r).mpr h)

end Store

/-! ## §7. Citations. -/

theorem mem_sortedTexts {texts : List PyStr} {t : PyStr} : t ∈ sortedTexts texts ↔ t ∈ texts :=
  List.mem_insertionSort _

theorem citedFor_iff {row : OperationalRecord} {r : ReceiptRecord} :
    (compatibleReceipt row r && (row.refs.contains r.recordHash ||
      r.refs.any (fun ref => row.refs.contains ref))) = true ↔ CitedFor row r := by
  unfold CitedFor
  rw [Bool.and_eq_true, Bool.or_eq_true, List.any_eq_true]
  simp

/-- The hashes that a row is cited with. -/
theorem mem_rowReceipts {rows : List OperationalRecord} {receipts : List (PyStr × ReceiptRecord)}
    (hres : ∀ r, r ∈ receipts.map Prod.snd ↔ ResolvedFor db scope rows r)
    {row : OperationalRecord} {h : PyStr} : h ∈ rowReceipts receipts row ↔
      ∃ r, ResolvedFor db scope rows r ∧ CitedFor row r ∧ r.recordHash = h := by
  unfold rowReceipts
  rw [mem_sortedTexts, List.mem_map]
  constructor
  · intro hex
    obtain ⟨r, hr, hh⟩ := hex
    rw [List.mem_filter, citedFor_iff, hres] at hr
    exact ⟨r, hr.1, hr.2, hh⟩
  · intro hex
    obtain ⟨r, hr, hc, hh⟩ := hex
    exact ⟨r, List.mem_filter.mpr ⟨(hres r).mpr hr, citedFor_iff.mpr hc⟩, hh⟩

/-- A citation is made for a row with receipts, if its time converts. -/
theorem citationOf_some {receipts : List (PyStr × ReceiptRecord)} {row : OperationalRecord}
    {citation : Citation} (h : citationOf rt receipts row = .ok (some citation)) :
    (∃ hash, hash ∈ rowReceipts receipts row) ∧ (∃ t, observedTime rt row = .ok t) ∧
      citation.sourceRef = row.sourceRef ∧
      citation.evidenceReceiptIds = rowReceipts receipts row := by
  unfold citationOf at h
  by_cases hempty : (rowReceipts receipts row).isEmpty = true
  · rw [if_pos hempty] at h
    cases h
  · rw [if_neg hempty] at h
    obtain ⟨t, ht, h⟩ := ok_of_bind h
    cases h
    exact ⟨List.exists_mem_of_ne_nil _ (fun hnil => hempty (List.isEmpty_iff.mpr hnil)), ⟨t, ht⟩,
      rfl, rfl⟩

theorem citationOf_made {receipts : List (PyStr × ReceiptRecord)} {row : OperationalRecord}
    {hash : PyStr} (h : hash ∈ rowReceipts receipts row) {t : Int}
    (ht : observedTime rt row = .ok t) :
    ∃ citation, citationOf rt receipts row = .ok (some citation) := by
  unfold citationOf
  rw [if_neg, ht]
  · exact ⟨_, rfl⟩
  · intro hempty
    rw [List.isEmpty_iff.mp hempty] at h
    cases h

/-- The kind and the id are read off a source reference. -/
theorem splitRef_sourceRef {row : OperationalRecord} {kind : OperationalEntityKind}
    (h : row.entityKind = kind.value) : splitRef row.sourceRef = row.entity := by
  have hplain : ∀ k : OperationalEntityKind, k.value.all (· != 58) = true := by
    intro k
    cases k <;> decide
  have hkind : ∀ x ∈ row.entityKind, (x != 58) = true := by
    rw [h]
    exact List.all_eq_true.mp (hplain kind)
  unfold splitRef OperationalRecord.sourceRef OperationalRecord.entity
  rw [List.append_assoc, List.takeWhile_append_of_pos hkind, List.dropWhile_append_of_pos hkind]
  simp

/-! ## §8. The answer about a pair. -/

/-- The records of a pair are of their kinds. -/
structure PairKinds (a v : OperationalRecord) : Prop where
  action : a.entityKind = OperationalEntityKind.actionRequest.value
  verification : v.entityKind = OperationalEntityKind.outcomeVerification.value

theorem PairKinds.ne {a v : OperationalRecord} (h : PairKinds a v) : a.entity ≠ v.entity := by
  intro heq
  have hkind : a.entityKind = v.entityKind := congrArg Prod.fst heq
  rw [h.action, h.verification] at hkind
  exact absurd (OperationalEntityKind.value_inj hkind) (by decide)

theorem PairKinds.byIdentity {a v : OperationalRecord} (h : PairKinds a v) :
    byIdentity [a, v] = [a, v] := by
  show (upsert [(a.entity, a)] v.entity (fun _ => v)).map Prod.snd = [a, v]
  rw [upsert, if_neg h.ne]
  rfl

/-- The citations of a pair, and the hashes in them. -/
def pairCitations (x y : Option Citation) : List Citation × List PyStr :=
  ([x, y].reduceOption,
    sortedTexts ([x, y].reduceOption.flatMap Citation.evidenceReceiptIds).dedup)

section Pair

variable (hi : StoreInv rt.toRuntime db) (hw : HasWorkspace db scope)
variable {a v : OperationalRecord} (hk : PairKinds a v)

include hi hw hk

variable (rt d) in
/-- **The citations of a pair** are those of its records. -/
theorem receiptsFor_pair : ∃ receipts,
    (∀ r, r ∈ receipts.map Prod.snd ↔ ResolvedFor db scope [a, v] r) ∧
    receiptsFor rt d db scope [a, v] = (do
      let x ← citationOf rt receipts a
      let y ← citationOf rt receipts v
      return pairCitations x y) := by
  obtain ⟨receipts, hok, hres⟩ := resolvedReceipts_spec (d := d) hi hw hk.byIdentity
  refine ⟨receipts, hres, ?_⟩
  unfold receiptsFor
  rw [hok]
  show (if receipts.isEmpty then _ else _) = _
  by_cases hempty : receipts.isEmpty = true
  · rw [if_pos hempty, List.isEmpty_iff.mp hempty]
    rfl
  · rw [if_neg hempty, hk.byIdentity, List.mapM_cons, List.mapM_cons, List.mapM_nil]
    cases citationOf rt receipts a with
    | error e => rfl
    | ok x =>
      cases citationOf rt receipts v with
      | error e => rfl
      | ok y => rfl

end Pair

section Cited

variable {a v : OperationalRecord}

/-- Both records of a pair are used where both are cited. -/
theorem usedRows_both (hk : PairKinds a v) {x y : Citation} (hx : x.sourceRef = a.sourceRef)
    (hy : y.sourceRef = v.sourceRef) : usedRows [a, v] [x, y] = [a, v] := by
  unfold usedRows
  rw [List.map_cons, List.map_cons, List.map_nil, hx, hy, splitRef_sourceRef hk.action,
    splitRef_sourceRef hk.verification]
  simp

/-- The citations are those of the records. -/
theorem mem_pairCitations {receipts : List (PyStr × ReceiptRecord)} {x y : Citation}
    (hx : x.evidenceReceiptIds = rowReceipts receipts a)
    (hy : y.evidenceReceiptIds = rowReceipts receipts v) {hash : PyStr} :
    hash ∈ (pairCitations (some x) (some y)).2 ↔
      hash ∈ rowReceipts receipts a ∨ hash ∈ rowReceipts receipts v := by
  show hash ∈ sortedTexts ([x, y].flatMap Citation.evidenceReceiptIds).dedup ↔ _
  rw [mem_sortedTexts, List.mem_dedup, ← hx, ← hy]
  simp

variable (question intent text : PyStr) (limitations : List PyStr) (review : Option PyStr)
variable (confidence : PyFloat)

/-- Nothing is answered where one of the records is not cited. -/
theorem citedAnswer_none (hk : PairKinds a v) {x y : Option Citation}
    (hx : ∀ ct, x = some ct → ct.sourceRef = a.sourceRef)
    (hy : ∀ ct, y = some ct → ct.sourceRef = v.sourceRef) (h : x = none ∨ y = none) :
    (citedAnswer question intent text [a, v] limitations review confidence (pairCitations x y).1
      (pairCitations x y).2).answer = none := by
  unfold citedAnswer
  by_cases hempty : ((pairCitations x y).1.isEmpty || (pairCitations x y).2.isEmpty) = true
  · rw [if_pos hempty]
    rfl
  rw [if_neg hempty, if_pos]
  · rfl
  -- one citation uses one row
  have hne := hk.ne
  have ha := splitRef_sourceRef hk.action
  have hv := splitRef_sourceRef hk.verification
  cases x with
  | none =>
    cases y with
    | none => exact absurd rfl hempty
    | some ct =>
      show (usedRows [a, v] [ct]).length ≠ 2
      simp [usedRows, hy ct rfl, hv, hne]
  | some ct =>
    cases y with
    | none =>
      show (usedRows [a, v] [ct]).length ≠ 2
      simp [usedRows, hx ct rfl, ha, hne.symm]
    | some ct' => rcases h with h | h <;> cases h

/-- Where both are cited, the pair is answered about. -/
theorem citedAnswer_some (hk : PairKinds a v) {x y : Citation} (hx : x.sourceRef = a.sourceRef)
    (hy : y.sourceRef = v.sourceRef) {hash : PyStr}
    (hhash : hash ∈ (pairCitations (some x) (some y)).2) :
    (citedAnswer question intent text [a, v] limitations review confidence
      (pairCitations (some x) (some y)).1 (pairCitations (some x) (some y)).2).answer = some text ∧
    (citedAnswer question intent text [a, v] limitations review confidence
      (pairCitations (some x) (some y)).1 (pairCitations (some x) (some y)).2).sourceEntities =
        [a.sourceRef, v.sourceRef] ∧
    (citedAnswer question intent text [a, v] limitations review confidence
      (pairCitations (some x) (some y)).1 (pairCitations (some x) (some y)).2).evidenceReceiptIds =
        (pairCitations (some x) (some y)).2 := by
  have hcitations : (pairCitations (some x) (some y)).1 = [x, y] := rfl
  have hids : (pairCitations (some x) (some y)).2.isEmpty = false := by
    rw [List.isEmpty_eq_false_iff]
    exact List.ne_nil_of_mem hhash
  have hused := usedRows_both hk hx hy
  unfold citedAnswer
  rw [hcitations, hids, hused, if_neg (by simp), if_neg (by simp)]
  exact ⟨rfl, rfl, rfl⟩

end Cited

section Answered

variable (hi : StoreInv rt.toRuntime db) (hw : HasWorkspace db scope)
variable {a v : OperationalRecord} (hk : PairKinds a v)
variable {question intent text : PyStr} {limitations : List PyStr} {review : Option PyStr}
variable {confidence : PyFloat}

include hi hw hk

/-- **What an answer about a pair cites.** -/
structure AnswersPair (db : Db) (scope : Scope) (a v : OperationalRecord)
    (answer : EnterpriseAnswer) : Prop where
  sourceEntities : answer.sourceEntities = [a.sourceRef, v.sourceRef]
  cited : ∀ hash, hash ∈ answer.evidenceReceiptIds ↔ ∃ row ∈ [a, v], ∃ r,
    ResolvedFor db scope [a, v] r ∧ CitedFor row r ∧ r.recordHash = hash

/-- **A pair is answered about** only where both records are covered and dated. -/
theorem answerFrom_answered {answer : EnterpriseAnswer}
    (h : answerFrom rt d db scope question intent text [a, v] limitations review confidence =
      .ok answer) (hne : answer.answer ≠ none) :
    Covered db scope [a, v] ∧ Dated rt [a, v] ∧ AnswersPair db scope a v answer := by
  obtain ⟨receipts, hres, hpair⟩ := receiptsFor_pair rt d hi hw hk
  unfold answerFrom at h
  rw [hpair] at h
  obtain ⟨found, hfound, h⟩ := ok_of_bind h
  obtain ⟨x, hx, hfound⟩ := ok_of_bind hfound
  obtain ⟨y, hy, hfound⟩ := ok_of_bind hfound
  cases hfound
  cases h
  have hxref : ∀ ct, x = some ct → ct.sourceRef = a.sourceRef := by
    intro ct hct
    rw [hct] at hx
    exact (citationOf_some hx).2.2.1
  have hyref : ∀ ct, y = some ct → ct.sourceRef = v.sourceRef := by
    intro ct hct
    rw [hct] at hy
    exact (citationOf_some hy).2.2.1
  cases x with
  | none => exact absurd (citedAnswer_none _ _ _ _ _ _ hk hxref hyref (.inl rfl)) hne
  | some x =>
    cases y with
    | none => exact absurd (citedAnswer_none _ _ _ _ _ _ hk hxref hyref (.inr rfl)) hne
    | some y =>
      obtain ⟨⟨hasha, hina⟩, hta, hxref, hxids⟩ := citationOf_some hx
      obtain ⟨⟨hashv, hinv⟩, htv, hyref, hyids⟩ := citationOf_some hy
      have hids := (mem_pairCitations hxids hyids).mpr (.inl hina)
      obtain ⟨_, hentities, hevidence⟩ :=
        citedAnswer_some question intent text limitations review confidence hk hxref hyref hids
      refine ⟨?_, ?_, hentities, ?_⟩
      · intro row hrow
        rcases List.mem_pair.mp hrow with rfl | rfl
        · obtain ⟨r, hr, hc, _⟩ := (mem_rowReceipts hres).mp hina
          exact ⟨r, hr, hc⟩
        · obtain ⟨r, hr, hc, _⟩ := (mem_rowReceipts hres).mp hinv
          exact ⟨r, hr, hc⟩
      · intro row hrow
        rcases List.mem_pair.mp hrow with rfl | rfl
        · exact hta
        · exact htv
      · intro hash
        rw [hevidence, mem_pairCitations hxids hyids, mem_rowReceipts hres, mem_rowReceipts hres]
        simp

/-- And it is, there. -/
theorem answerFrom_made (hc : Covered db scope [a, v]) (hd : Dated rt [a, v]) :
    ∃ answer, answerFrom rt d db scope question intent text [a, v] limitations review confidence =
      .ok answer ∧ answer.answer ≠ none := by
  obtain ⟨receipts, hres, hpair⟩ := receiptsFor_pair rt d hi hw hk
  obtain ⟨ra, hra, hca⟩ := hc a List.mem_cons_self
  obtain ⟨rv, hrv, hcv⟩ := hc v (List.mem_cons_of_mem _ List.mem_cons_self)
  obtain ⟨ta, hta⟩ := hd a List.mem_cons_self
  obtain ⟨tv, htv⟩ := hd v (List.mem_cons_of_mem _ List.mem_cons_self)
  have hina : ra.recordHash ∈ rowReceipts receipts a :=
    (mem_rowReceipts hres).mpr ⟨ra, hra, hca, rfl⟩
  have hinv : rv.recordHash ∈ rowReceipts receipts v :=
    (mem_rowReceipts hres).mpr ⟨rv, hrv, hcv, rfl⟩
  obtain ⟨x, hx⟩ := citationOf_made hina hta
  obtain ⟨y, hy⟩ := citationOf_made hinv htv
  obtain ⟨_, _, hxref, hxids⟩ := citationOf_some hx
  obtain ⟨_, _, hyref, hyids⟩ := citationOf_some hy
  have hids := (mem_pairCitations hxids hyids).mpr (.inl hina)
  refine ⟨citedAnswer question intent text [a, v] limitations review confidence
    (pairCitations (some x) (some y)).1 (pairCitations (some x) (some y)).2, ?_, ?_⟩
  · unfold answerFrom
    rw [hpair, hx, hy]
    rfl
  · rw [(citedAnswer_some question intent text limitations review confidence hk hxref hyref
      hids).1]
    simp

end Answered

end Evidence

/-! ## §9. The handler. -/

section Handler

variable {rt : Builtins} {c : Collation} {d : Dialect} {db : Db} {scope : Scope}

/-- The states of the records that are looked at can be spelled. -/
structure StatesSpelled (rt : Builtins) (c : Collation) (db : Db) (scope : Scope) : Prop where
  actions : ∀ r ∈ consulted c db scope .actionRequest, Spelled rt r
  verifications : ∀ r ∈ consulted c db scope .outcomeVerification, Spelled rt r

theorem keepOk_byState {keep : OperationalRecord → PyStr → Bool} {rows : List OperationalRecord}
    (h : ∀ r ∈ rows, Spelled rt r) :
    keepOk (byState rt keep) rows = .ok (rows.filter (keepsState rt keep)) := by
  apply keepOk_of_ok
  intro r hr
  obtain ⟨state, hstate⟩ := h r hr
  unfold byState keepsState
  rw [hstate]
  rfl

theorem spelled_of_keepOk {keep : OperationalRecord → PyStr → Bool}
    {rows kept : List OperationalRecord} (h : keepOk (byState rt keep) rows = .ok kept) :
    ∀ r ∈ rows, Spelled rt r := by
  intro r hr
  obtain ⟨b, hb⟩ := ok_of_keepOk h r hr
  obtain ⟨state, hstate, _⟩ := ok_of_bind hb
  exact ⟨state, hstate⟩

variable (hi : StoreInv rt.toRuntime db) (hw : HasWorkspace db scope)

include hi hw

/-- The handler, where the states can be spelled. -/
theorem postAction_of_selected (hs : StatesSpelled rt c db scope) {question : PyStr}
    {selected : Option (OperationalRecord × OperationalRecord)}
    (h : firstOk (pairOf rt d db scope (verificationsOf rt c db scope))
      (actionsOf rt c db scope) = .ok selected) :
    postActionOutcome rt c d db scope question =
      selected.elim (.ok (noPairAnswer question))
        (fun p => pairAnswer rt d db scope question p.1 p.2) := by
  unfold postActionOutcome
  rw [loadRecords_eq hi hw, loadRecords_eq hi hw]
  show (keepOk (byState rt executedAction) (consulted c db scope .actionRequest) >>= _) = _
  rw [keepOk_byState hs.actions]
  show (keepOk (byState rt verifiedOutcome) (consulted c db scope .outcomeVerification) >>= _) = _
  rw [keepOk_byState hs.verifications]
  show (firstOk (pairOf rt d db scope (verificationsOf rt c db scope))
    (actionsOf rt c db scope) >>= _) = _
  rw [h]
  cases selected with
  | none => rfl
  | some p => rfl

/-- The handler returns only where they can, and nothing in the search raises. -/
theorem selected_of_postAction {question : PyStr} {answer : EnterpriseAnswer}
    (h : postActionOutcome rt c d db scope question = .ok answer) :
    StatesSpelled rt c db scope ∧ ∃ selected,
      firstOk (pairOf rt d db scope (verificationsOf rt c db scope))
        (actionsOf rt c db scope) = .ok selected := by
  unfold postActionOutcome at h
  rw [loadRecords_eq hi hw, loadRecords_eq hi hw] at h
  obtain ⟨rows, hrows, h⟩ := ok_of_bind h
  cases hrows
  obtain ⟨actions, hactions, h⟩ := ok_of_bind h
  obtain ⟨rows, hrows, h⟩ := ok_of_bind h
  cases hrows
  obtain ⟨verifications, hverifications, h⟩ := ok_of_bind h
  obtain ⟨selected, hselected, h⟩ := ok_of_bind h
  have hs : StatesSpelled rt c db scope :=
    ⟨spelled_of_keepOk hactions, spelled_of_keepOk hverifications⟩
  rw [keepOk_byState hs.actions] at hactions
  rw [keepOk_byState hs.verifications] at hverifications
  cases hactions
  cases hverifications
  exact ⟨hs, selected, hselected⟩

end Handler

/-! ## §10. Grounding. -/

section Grounding

variable {rt : Builtins} {c : Collation} {d : Dialect} {db : Db} {scope : Scope}

theorem mem_consulted {kind : OperationalEntityKind} {r : OperationalRecord}
    (h : r ∈ consulted c db scope kind) : r ∈ listedOperational c db scope (some kind) :=
  List.mem_of_mem_drop (List.mem_of_mem_take (List.mem_filter.mp h).1)

theorem listed_kind {kind : OperationalEntityKind} {r : OperationalRecord}
    (h : r ∈ listedOperational c db scope (some kind)) : r.entityKind = kind.value :=
  beq_iff_eq.mp (mem_listedOperational.mp h).2.2.1

theorem GroundedIn.kinds {a v : OperationalRecord} {e o : ReceiptRecord}
    (h : GroundedIn rt c db scope a v e o) : PairKinds a v :=
  ⟨listed_kind h.action, listed_kind h.verification⟩

/-- A linked pair of the two lists is grounded. -/
theorem grounded_of_linked {a v : OperationalRecord} {e o : ReceiptRecord}
    (ha : a ∈ actionsOf rt c db scope) (hv : v ∈ verificationsOf rt c db scope)
    (hl : LinkedPair rt db scope a v e o) : GroundedIn rt c db scope a v e o where
  action := mem_consulted (List.mem_filter.mp ha).1
  executed := (List.mem_filter.mp ha).2
  verification := mem_consulted (List.mem_filter.mp hv).1
  verified := (List.mem_filter.mp hv).2
  linked := hl

/-- **The first linked pair is grounded.** -/
theorem FirstLinked.grounded {a v : OperationalRecord} (h : FirstLinked rt c db scope a v) :
    ∃ e o, GroundedIn rt c db scope a v e o := by
  obtain ⟨before, after, hlist, _, before', after', hlist', _, e, o, hl⟩ := h
  have ha : a ∈ actionsOf rt c db scope := by
    rw [hlist]
    exact List.mem_append_right _ List.mem_cons_self
  have hv : v ∈ verificationsOf rt c db scope := by
    rw [hlist']
    exact List.mem_append_right _ List.mem_cons_self
  exact ⟨e, o, grounded_of_linked ha hv hl⟩

/-- A record that passes the filter of actions is measured. -/
theorem measured_of_keeps {keep : OperationalRecord → PyStr → Bool} {r : OperationalRecord}
    (hkeep : ∀ state, keep r state = true → r.truthLabel = TruthLabel.measured.value)
    (h : keepsState rt keep r = true) : r.truthLabel = TruthLabel.measured.value := by
  unfold keepsState at h
  rw [Option.any_eq_true] at h
  obtain ⟨state, _, hstate⟩ := h
  exact hkeep _ hstate

theorem GroundedIn.measured {a v : OperationalRecord} {e o : ReceiptRecord}
    (h : GroundedIn rt c db scope a v e o) : a.truthLabel = TruthLabel.measured.value ∧
      v.truthLabel = TruthLabel.measured.value := by
  constructor
  · apply measured_of_keeps ?_ h.executed
    intro state hstate
    unfold executedAction at hstate
    rw [Bool.and_eq_true, beq_iff_eq] at hstate
    exact hstate.2
  · apply measured_of_keeps ?_ h.verified
    intro state hstate
    unfold verifiedOutcome at hstate
    rw [Bool.and_eq_true, beq_iff_eq] at hstate
    exact hstate.2

/-- A measured receipt is compatible with a measured record. -/
theorem compatible_measured {row : OperationalRecord} {r : ReceiptRecord}
    (hrow : row.truthLabel = TruthLabel.measured.value)
    (hr : r.truthLabel = TruthLabel.measured.value) : compatibleReceipt row r = true := by
  unfold compatibleReceipt
  rw [hrow, hr]
  decide

theorem GroundedIn.cited {a v : OperationalRecord} {e o : ReceiptRecord}
    (h : GroundedIn rt c db scope a v e o) : CitedFor a e ∧ CitedFor v o := by
  obtain ⟨ha, hv⟩ := h.measured
  have hexecutes := h.linked.execution.executes
  have hverifies := h.linked.outcome.verifies
  have hverification := h.linked.outcome.verification
  unfold executes at hexecutes
  unfold verifies at hverifies
  unfold verifiesAction at hverification
  simp only [Bool.and_eq_true, beq_iff_eq, List.contains_iff_mem] at hexecutes hverifies
  simp only [Bool.and_eq_true, List.contains_iff_mem] at hverification
  exact ⟨⟨compatible_measured ha hexecutes.1.1.1.1.1, .inl hexecutes.1.1.2⟩,
    ⟨compatible_measured hv hverifies.1.1.1.1.1.1, .inl hverification.2⟩⟩

section Store

variable (hi : StoreInv rt.toRuntime db)

include hi

/-- The receipts of a grounded pair are cited exactly if they are resolved. -/
theorem AnswersPair.cited_iff {a v : OperationalRecord} {e o : ReceiptRecord}
    {answer : EnterpriseAnswer} (h : AnswersPair db scope a v answer)
    (hg : GroundedIn rt c db scope a v e o) :
    (e.recordHash ∈ answer.evidenceReceiptIds ↔ ResolvedFor db scope [a, v] e) ∧
    (o.recordHash ∈ answer.evidenceReceiptIds ↔ ResolvedFor db scope [a, v] o) := by
  have hresolved : ∀ r, findReceipt db scope r.recordHash = some r →
      r.recordHash ∈ answer.evidenceReceiptIds → ResolvedFor db scope [a, v] r := by
    intro r hr hmem
    obtain ⟨_, _, r', hres, _, hhash⟩ := (h.cited _).mp hmem
    obtain ⟨hin, hs⟩ := hres.stored
    obtain ⟨hin', hs', _⟩ := findReceipt_some hr
    rw [← receipt_unique hi hin hin' hs hs' hhash]
    exact hres
  constructor
  · constructor
    · exact hresolved e hg.linked.execution.stored
    · intro hres
      exact (h.cited _).mpr ⟨a, List.mem_cons_self, e, hres, hg.cited.1, rfl⟩
  · constructor
    · exact hresolved o hg.linked.outcome.stored
    · intro hres
      exact (h.cited _).mpr
        ⟨v, List.mem_cons_of_mem _ List.mem_cons_self, o, hres, hg.cited.2, rfl⟩

/-- The current records of one kind are told apart by their references. -/
theorem listed_unique {kind : OperationalEntityKind} {r r' : OperationalRecord}
    (h : r ∈ listedOperational c db scope (some kind))
    (h' : r' ∈ listedOperational c db scope (some kind)) (href : r.sourceRef = r'.sourceRef) :
    r = r' := by
  have hkind : r.entityKind = r'.entityKind := (listed_kind h).trans (listed_kind h').symm
  have hid : r.entityId = r'.entityId := by
    unfold OperationalRecord.sourceRef at href
    rw [hkind] at href
    exact List.append_cancel_left href
  obtain ⟨hmem, hs, _, hmax⟩ := mem_listedOperational.mp h
  obtain ⟨hmem', hs', _, hmax'⟩ := mem_listedOperational.mp h'
  apply operational_unique hi hmem hmem' hs hs' (Prod.ext hkind hid)
  apply le_antisymm
  · exact hmax' r (mem_entityVersions.mpr ⟨hmem, hs, hkind, hid⟩)
  · exact hmax r' (mem_entityVersions.mpr ⟨hmem', hs', hkind.symm, hid.symm⟩)

/-- A grounded pair and its receipts are told by the references of the records. -/
theorem GroundedIn.unique {a v a' v' : OperationalRecord} {e o e' o' : ReceiptRecord}
    (h : GroundedIn rt c db scope a v e o) (h' : GroundedIn rt c db scope a' v' e' o')
    (href : [a.sourceRef, v.sourceRef] = [a'.sourceRef, v'.sourceRef]) : e = e' ∧ o = o' := by
  rw [List.cons.injEq, List.cons.injEq] at href
  have ha : a = a' := listed_unique hi h.action h'.action href.1
  have hv : v = v' := listed_unique hi h.verification h'.verification href.2.1
  have hexecution := h.linked.execution
  have houtcome := h.linked.outcome
  rw [ha] at hexecution houtcome
  rw [hv] at houtcome
  have he := hexecution.unique h'.linked.execution
  rw [he] at houtcome
  exact ⟨he, houtcome.unique h'.linked.outcome⟩

end Store

end Grounding

/-! ## §11. Post-action answers. -/

section Theorem

variable (rt : Builtins) (c : Collation) (db : Db) (scope : Scope)

/-- **The answers are causally grounded**: what is answered is about a grounded pair and cites
its two receipts, and where there is none, nothing is answered. -/
structure CausallyGrounded (result : Except Exn EnterpriseAnswer) : Prop where
  cited : ∀ answer, result = .ok answer → answer.answer ≠ none → ∃ a v e o,
    GroundedIn rt c db scope a v e o ∧ answer.sourceEntities = [a.sourceRef, v.sourceRef] ∧
    e.recordHash ∈ answer.evidenceReceiptIds ∧ o.recordHash ∈ answer.evidenceReceiptIds
  null : (∀ a v e o, ¬ GroundedIn rt c db scope a v e o) →
    ∃ answer, result = .ok answer ∧ answer.answer = none

/-- **States in which they are**: where nothing is grounded, every state can be spelled and
every time that is read converts; and where the first linked pair is covered and dated, its
receipts are resolved. -/
structure EvidenceInReach : Prop where
  readable : (∀ a v e o, ¬ GroundedIn rt c db scope a v e o) → StatesSpelled rt c db scope ∧
    ∀ a ∈ actionsOf rt c db scope, ExecutionConverts rt db scope a ∧
      ∀ v ∈ verificationsOf rt c db scope, WindowConverts rt db scope a v
  resolved : StatesSpelled rt c db scope → ∀ a v e o, FirstLinked rt c db scope a v →
    LinkedPair rt db scope a v e o → Covered db scope [a, v] → Dated rt [a, v] →
    ResolvedFor db scope [a, v] e ∧ ResolvedFor db scope [a, v] o

variable {rt c db scope} {d : Dialect}
variable (hi : StoreInv rt.toRuntime db) (hw : HasWorkspace db scope)

include hi hw

/-- What is answered is about the first linked pair. -/
theorem postAction_answered {question : PyStr} {answer : EnterpriseAnswer}
    (h : postActionOutcome rt c d db scope question = .ok answer) (hne : answer.answer ≠ none) :
    StatesSpelled rt c db scope ∧ ∃ a v, FirstLinked rt c db scope a v ∧
      Covered db scope [a, v] ∧ Dated rt [a, v] ∧ AnswersPair db scope a v answer := by
  obtain ⟨hs, selected, hselected⟩ := selected_of_postAction hi hw h
  rw [postAction_of_selected hi hw hs hselected] at h
  cases selected with
  | none =>
    cases h
    exact absurd rfl hne
  | some p =>
    have hfirst := (selected_some_iff hi hw).mp hselected
    obtain ⟨e, o, hg⟩ := hfirst.grounded
    obtain ⟨hc, hd, ha⟩ := answerFrom_answered hi hw hg.kinds h hne
    exact ⟨hs, p.1, p.2, hfirst, hc, hd, ha⟩

/-- **Answers are always grounded.** -/
theorem postAction_grounded {question : PyStr} {answer : EnterpriseAnswer}
    (h : postActionOutcome rt c d db scope question = .ok answer) (hne : answer.answer ≠ none) :
    ∃ a v e o, GroundedIn rt c db scope a v e o ∧
      answer.sourceEntities = [a.sourceRef, v.sourceRef] := by
  obtain ⟨_, a, v, hfirst, _, _, ha⟩ := postAction_answered hi hw h hne
  obtain ⟨e, o, hg⟩ := hfirst.grounded
  exact ⟨a, v, e, o, hg, ha.sourceEntities⟩

theorem inReach_of_grounded {question : PyStr}
    (h : CausallyGrounded rt c db scope (postActionOutcome rt c d db scope question)) :
    EvidenceInReach rt c db scope := by
  constructor
  · intro hnone
    obtain ⟨answer, hok, hnull⟩ := h.null hnone
    obtain ⟨hs, selected, hselected⟩ := selected_of_postAction hi hw hok
    cases selected with
    | none =>
      have hpassed := (selected_none_iff hi hw).mp hselected
      exact ⟨hs, fun a ha => ⟨(hpassed a ha).converts,
        fun v hv => ((hpassed a ha).pairs v hv).converts⟩⟩
    | some p =>
      obtain ⟨e, o, hg⟩ := ((selected_some_iff hi hw).mp hselected).grounded
      exact absurd hg (hnone _ _ _ _)
  · intro hs a v e o hfirst hl hc hd
    have hselected := (selected_some_iff (d := d) hi hw).mpr hfirst
    have hg : GroundedIn rt c db scope a v e o := by
      obtain ⟨e', o', hg⟩ := hfirst.grounded
      exact ⟨hg.action, hg.executed, hg.verification, hg.verified, hl⟩
    have hpost : postActionOutcome rt c d db scope question =
        pairAnswer rt d db scope question a v := postAction_of_selected hi hw hs hselected
    obtain ⟨answer, hok, hne⟩ : ∃ answer, pairAnswer rt d db scope question a v = .ok answer ∧
        answer.answer ≠ none := answerFrom_made hi hw hg.kinds hc hd
    obtain ⟨_, _, hanswer⟩ := answerFrom_answered hi hw hg.kinds hok hne
    rw [hpost] at h
    obtain ⟨a', v', e', o', hg', href, he, ho⟩ := h.cited answer hok hne
    -- the answer names its records, and they have one pair of receipts
    obtain ⟨hee, hoo⟩ := hg.unique hi hg' (hanswer.sourceEntities.symm.trans href)
    rw [← hee] at he
    rw [← hoo] at ho
    obtain ⟨hecited, hocited⟩ := hanswer.cited_iff hi hg
    exact ⟨hecited.mp he, hocited.mp ho⟩

theorem grounded_of_inReach {question : PyStr} (h : EvidenceInReach rt c db scope) :
    CausallyGrounded rt c db scope (postActionOutcome rt c d db scope question) := by
  constructor
  · intro answer hok hne
    obtain ⟨hs, a, v, hfirst, hc, hd, hanswer⟩ := postAction_answered hi hw hok hne
    obtain ⟨e, o, hg⟩ := hfirst.grounded
    obtain ⟨hecited, hocited⟩ := hanswer.cited_iff hi hg
    obtain ⟨he, ho⟩ := h.resolved hs a v e o hfirst hg.linked hc hd
    exact ⟨a, v, e, o, hg, hanswer.sourceEntities, hecited.mpr he, hocited.mpr ho⟩
  · intro hnone
    obtain ⟨hs, hconverts⟩ := h.readable hnone
    have hselected : firstOk (pairOf rt d db scope (verificationsOf rt c db scope))
        (actionsOf rt c db scope) = .ok none := by
      rw [selected_none_iff hi hw]
      intro a ha
      constructor
      · exact (hconverts a ha).1
      · intro v hv
        exact ⟨(hconverts a ha).2 v hv,
          fun e o hl => hnone a v e o (grounded_of_linked ha hv hl)⟩
    exact ⟨noPairAnswer question, postAction_of_selected hi hw hs hselected, rfl⟩

end Theorem

/-- **Post-action answers.**  Whatever is answered to a question of this intent is about a
grounded pair; its receipts are cited, and nothing is answered where nothing is grounded,
exactly if the evidence is in reach. -/
theorem post_action_grounded (rt : Builtins) (c : Collation) (d : Dialect) (db : Db)
    (scope : Scope) (hi : StoreInv rt.toRuntime db) (hw : HasWorkspace db scope)
    (others : Intent → PyStr → Except Exn EnterpriseAnswer) (question clean normalized : PyStr)
    (hclean : cleanQuestion rt question = .ok (clean, normalized))
    (hintent : intentOf normalized = .postActionOutcome) :
    (∀ answer, ask rt c d db scope others question = .ok answer → answer.answer ≠ none →
      ∃ a v e o, GroundedIn rt c db scope a v e o ∧
        answer.sourceEntities = [a.sourceRef, v.sourceRef]) ∧
    (CausallyGrounded rt c db scope (ask rt c d db scope others question) ↔
      EvidenceInReach rt c db scope) := by
  have hask : ask rt c d db scope others question = postActionOutcome rt c d db scope clean := by
    unfold ask
    rw [hclean]
    simp only [bind, Except.bind, hintent]
  rw [hask]
  exact ⟨fun answer => postAction_grounded hi hw, inReach_of_grounded hi hw,
    grounded_of_inReach hi hw⟩

/-! ## §12. An action that was executed, and its outcome. -/

def Builtins.sample : Builtins where
  toRuntime := .ascii
  reprOf _ := .ok []
  upper := List.map asciiUpper
  lower := List.map asciiLower

def sampleAt (minutes : Int) : Json := .str (isoText (sampleInstant.micros + minutes * 60000000))

/-- The digest of the receipt of the execution. -/
def executionHash : PyStr := py "3ef6f094c2141060634e89ed1419cf7c2df84684bbb436e8747e70a56a60b202"

/-- The digest of the receipt of the outcome. -/
def outcomeHash : PyStr := py "054003f34aa02464ccee08c5b6d807f24fd01042c0b2b9cce7592f02f3602a7a"

def sampleExecution : ReceiptDraft :=
  ⟨py "action.executed", py "action", py "action-1",
    ⟨[(py "state", .str (py "EXECUTED")), (py "simulation", .bool false),
      (py "executed_at", sampleAt 0)], rfl⟩, .measured, []⟩

def sampleOutcome : ReceiptDraft :=
  ⟨py "outcome.verified", py "outcome", py "outcome-1",
    ⟨[(py "action_request_id", .str (py "action-1")),
      (py "execution_receipt_hash", .str executionHash),
      (py "production_outcome_claimed", .bool true), (py "improved", .bool true),
      (py "window_start", sampleAt 1), (py "window_end", sampleAt 2)], rfl⟩,
    .measured, [py "change-1"]⟩

def sampleAction (refs : List PyStr) : OperationalRecordDraft :=
  ⟨.actionRequest, py "action-1", py "Rollback",
    ⟨[(py "state", .str (py "EXECUTED")), (py "simulation", .bool false),
      (py "execution_receipt_hash", .str executionHash)], rfl⟩,
    .measured, refs ++ [executionHash], none, none, .empty⟩

def sampleVerification : OperationalRecordDraft :=
  ⟨.outcomeVerification, py "outcome-1", py "Latency",
    ⟨[(py "state", .str (py "VERIFIED")), (py "production_outcome_claimed", .bool true),
      (py "action_request_id", .str (py "action-1")),
      (py "execution_receipt_hash", .str executionHash),
      (py "outcome_receipt_hash", .str outcomeHash)], rfl⟩,
    .measured, [outcomeHash], none, none, .empty⟩

/-- A run that leaves an action with the given references before its execution receipt. -/
def actionRun (refs : List PyStr) : List Issued :=
  sampleSetup ++ [
    .plain (.appendReceipt sampleScope sampleExecution none none) "c",
    .plain (.appendReceipt sampleScope sampleOutcome none none) "d",
    .plain (.upsertOperational sampleScope (sampleAction refs) none none) "e",
    .plain (.upsertOperational sampleScope sampleVerification none none) "f"]

def actionDb (refs : List PyStr) : Db := runCalls .ascii .sqlite Db.empty (actionRun refs)

/-- Strings by their code points. -/
def Collation.codePoints : Collation where
  le := strLe
  total a b := by
    rw [Bool.or_eq_true]
    exact strLe_total a b
  trans _ _ _ := strLe_trans
  antisymm _ _ := strLe_antisymm

def sampleQuestion : PyStr := py "What improved after the approved action?"

def askSample (refs : List PyStr) : Except Exn EnterpriseAnswer :=
  ask .sample .codePoints .sqlite (actionDb refs) sampleScope
    (fun _ question => .ok (noPairAnswer question)) sampleQuestion

def sampleNormalized : PyStr := py "what improved after the approved action"

theorem sampleQuestion_clean :
    cleanQuestion .sample sampleQuestion = .ok (sampleQuestion, sampleNormalized) := by
  decide +kernel

theorem actionDb_storeInv (refs : List PyStr) : StoreInv .ascii (actionDb refs) :=
  storeInv_run (actionRun refs) (storeInv_empty .ascii)

theorem actionDb_hasWorkspace (refs : List PyStr) : HasWorkspace (actionDb refs) sampleScope := by
  unfold actionDb actionRun
  rw [runCalls_append]
  exact hasWorkspace_run (sampleSetup_hasWorkspace .sqlite) _

/-- Receipts of a grounded pair are of the kinds of an execution and an outcome. -/
theorem GroundedIn.receipts {rt : Builtins} {c : Collation} {db : Db} {scope : Scope}
    {a v : OperationalRecord} {e o : ReceiptRecord} (h : GroundedIn rt c db scope a v e o) :
    e ∈ db.receipts ∧ o ∈ db.receipts ∧ e.kind = py "action.executed" := by
  have hexecutes := h.linked.execution.executes
  unfold executes at hexecutes
  simp only [Bool.and_eq_true, beq_iff_eq] at hexecutes
  exact ⟨(findReceipt_some h.linked.execution.stored).1,
    (findReceipt_some h.linked.outcome.stored).1, hexecutes.1.1.1.1.2⟩

theorem post_action_grounded_sample : ∃ answer, askSample [] = .ok answer ∧
    answer.answer ≠ none ∧
    (∃ a v e o, GroundedIn .sample .codePoints (actionDb []) sampleScope a v e o ∧
      answer.sourceEntities = [a.sourceRef, v.sourceRef]) ∧
    EvidenceInReach .sample .codePoints (actionDb []) sampleScope := by
  have hfound : (askSample []).toOption.map (fun answer => (answer.answer.isSome,
      (actionDb []).receipts.all (fun r => answer.evidenceReceiptIds.contains r.recordHash))) =
    some (true, true) := by decide +kernel
  obtain ⟨hgrounded, hreach⟩ := post_action_grounded .sample .codePoints .sqlite (actionDb [])
    sampleScope (actionDb_storeInv []) (actionDb_hasWorkspace [])
    (fun _ question => .ok (noPairAnswer question)) sampleQuestion sampleQuestion sampleNormalized
    sampleQuestion_clean (by decide +kernel)
  cases hask : askSample [] with
  | error e =>
    rw [hask] at hfound
    cases hfound
  | ok answer =>
    rw [hask] at hfound
    obtain ⟨hsome, hall⟩ := Prod.mk.inj (Option.some.inj hfound)
    have hne : answer.answer ≠ none := by
      rw [← Option.isSome_iff_ne_none]
      exact hsome
    obtain ⟨a, v, e, o, hg, href⟩ := hgrounded answer hask hne
    refine ⟨answer, rfl, hne, ⟨a, v, e, o, hg, href⟩, hreach.mp ?_⟩
    constructor
    · intro answer' hok _
      rw [Except.ok.inj (hok.symm.trans hask)]
      rw [List.all_eq_true] at hall
      obtain ⟨he, ho, _⟩ := hg.receipts
      exact ⟨a, v, e, o, hg, href, List.contains_iff_mem.mp (hall e he),
        List.contains_iff_mem.mp (hall o ho)⟩
    · intro hnone
      exact absurd hg (hnone a v e o)

/-- Twenty references to changes. -/
def changeRefs : List PyStr := (List.range 20).map (fun i => py "change-" ++ decimal (i + 1))

/-- **An answer that does not cite the execution** it is about: the receipt is the 21st
reference of the action. -/
theorem post_action_uncited : ∃ answer, askSample changeRefs = .ok answer ∧
    answer.answer ≠ none ∧
    (∀ a v e o, GroundedIn .sample .codePoints (actionDb changeRefs) sampleScope a v e o →
      e.recordHash ∉ answer.evidenceReceiptIds) ∧
    ¬ CausallyGrounded .sample .codePoints (actionDb changeRefs) sampleScope
      (askSample changeRefs) := by
  have hfound : (askSample changeRefs).toOption.map (fun answer => (answer.answer.isSome,
      (actionDb changeRefs).receipts.all (fun r => r.kind != py "action.executed" ||
        !answer.evidenceReceiptIds.contains r.recordHash))) = some (true, true) := by
    decide +kernel
  cases hask : askSample changeRefs with
  | error e =>
    rw [hask] at hfound
    cases hfound
  | ok answer =>
    rw [hask] at hfound
    obtain ⟨hsome, hall⟩ := Prod.mk.inj (Option.some.inj hfound)
    have hne : answer.answer ≠ none := by
      rw [← Option.isSome_iff_ne_none]
      exact hsome
    have huncited : ∀ a v e o,
        GroundedIn .sample .codePoints (actionDb changeRefs) sampleScope a v e o →
        e.recordHash ∉ answer.evidenceReceiptIds := by
      intro a v e o hg hmem
      obtain ⟨he, _, hkind⟩ := hg.receipts
      rw [List.all_eq_true] at hall
      have hone := hall e he
      rw [hkind, List.contains_iff_mem.mpr hmem] at hone
      simp at hone
    refine ⟨answer, rfl, hne, huncited, ?_⟩
    intro hcited
    obtain ⟨a, v, e, o, hg, _, he, _⟩ := hcited.cited answer rfl hne
    exact huncited a v e o hg he

end Lyte
