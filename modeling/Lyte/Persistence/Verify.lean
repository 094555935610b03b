import Lyte.Persistence.Runs

/-
  Lyte.Persistence.Verify — what `verify_chain` accepts.

  The verifier walks one stream in the order of its sequence numbers and looks
  at five entries of each basis, at its digest, at the links between the rows
  and, at the end, at the head.  `verifyChain_valid_iff` says for every database
  which streams it reports valid: those whose rows form a chain of `Verified`
  rows that ends at the head.

  From it, with the invariant of the store: in every reachable database every
  stream of every workspace is such a chain, and is reported valid.
-/

namespace Lyte

open Transact HashChain

variable (rt : Runtime) (d : Dialect)

/-! ## §1. One row. -/

/-- A basis that names its scope, its stream and its place there. -/
def basisNames (b : Json) (scope : Scope) (k : StreamKind) (sequence : Int)
    (previousHash : Option PyStr) : Bool :=
  match b with
  | .dict fields =>
      (Json.get fields (py "tenant_id")).pyEq (.str scope.tenantId.text) &&
        (Json.get fields (py "workspace_id")).pyEq (.str scope.workspaceId.text) &&
        (Json.get fields (py "stream_kind")).pyEq (.str k.value) &&
        (Json.get fields (py "sequence")).pyEq (.int sequence) &&
        (Json.get fields (py "previous_hash")).pyEq (Json.ofOption previousHash)
  | _ => false

/-- **What `verify_chain` checks of a row** besides its links. -/
structure Verified (scope : Scope) (k : StreamKind) (m : AppendOnlyMixin) : Prop where
  names : basisNames m.basisJson scope k m.sequence m.previousHash = true
  digest : sha256Json rt m.basisJson = .ok m.recordHash

variable {rt d}

/-- The checks on one row find nothing exactly where it is linked and verified. -/
theorem rowError_none {scope : Scope} {k : StreamKind} {n : Nat} {p : Option PyStr}
    {m : AppendOnlyMixin} :
    rowError rt scope k n p m = .ok none ↔
      m.sequence = n ∧ m.previousHash = p ∧ Verified rt scope k m := by
  unfold rowError
  by_cases hs : m.sequence = n
  swap
  · simp [hs, pure, Except.pure]
  by_cases hp : m.previousHash = p
  swap
  · simp [hs, hp, pure, Except.pure]
  simp only [hs, hp, ne_eq, not_true_eq_false, if_false, true_and]
  have hv : Verified rt scope k m ↔
      basisNames m.basisJson scope k n p = true ∧ sha256Json rt m.basisJson = .ok m.recordHash := by
    rw [← hs, ← hp]
    exact ⟨fun h => ⟨h.names, h.digest⟩, fun h => ⟨h.1, h.2⟩⟩
  rw [hv]
  cases hb : m.basisJson with
  | dict fields =>
    simp only [basisGet, basisNames, bind, Except.bind, pure, Except.pure]
    cases hd : sha256Json rt (.dict fields) with
    | error e => grind
    | ok digest => grind
  | _ => simp [basisGet, basisNames, bind, Except.bind]

/-- **The loop of `verify_chain`** finds nothing exactly in a chain, and ends at
its tip. -/
theorem verifyRows_none {scope : Scope} {k : StreamKind} {rows : List Row} {n : Nat}
    {p q : Option PyStr} :
    verifyRows rt scope k rows (n + 1) p = .ok (q, none) ↔
      Chained rowLinks (Verified rt scope k) n p (rows.map Row.mixin) ∧
        q = (tip rowLinks ((n : Int), p) (rows.map Row.mixin)).2 := by
  induction rows generalizing n p with
  | nil =>
    simp only [verifyRows, pure, Except.pure, List.map_nil, chained_nil, tip_nil, true_and,
      Except.ok.injEq, Prod.mk.injEq, and_true]
    exact eq_comm
  | cons row rows ih =>
    unfold verifyRows
    have hrow : ∀ (message : Except Exn (Option PyStr)),
        rowError rt scope k (n + 1) p row.mixin = message → message ≠ .ok none →
        ¬ Chained rowLinks (Verified rt scope k) n p ((row :: rows).map Row.mixin) := by
      intro message hm hne hc
      obtain ⟨hi, hp, hv, _⟩ := hc
      rw [rowError_none.mpr ⟨by simpa using hi, hp, hv⟩] at hm
      exact hne hm.symm
    cases hr : rowError rt scope k (n + 1) p row.mixin with
    | error e =>
      constructor
      · intro h
        cases h
      · intro h
        exact absurd h.1 (hrow _ hr (by simp))
    | ok message =>
      cases message with
      | some message =>
        constructor
        · intro h
          cases h
        · intro h
          exact absurd h.1 (hrow _ hr (by simp))
      | none =>
        obtain ⟨hi, hp, hv⟩ := rowError_none.mp hr
        have hcast : ((n + 1 : Nat) : Int) = n + 1 := by omega
        have hi' : row.mixin.sequence = (n : Int) + 1 := by rw [hi, hcast]
        rw [List.map_cons, tip_cons, rowLinks_index, rowLinks_digest, hi']
        refine (ih (n := n + 1) (p := some row.mixin.recordHash)).trans ?_
        simp only [Chained, rowLinks_index, rowLinks_prev, rowLinks_digest, hi', hp, hv, true_and,
          hcast]

/-! ## §2. One stream. -/

/-- `verify_chain` on the database `db`, with no faults. -/
def verifyChainOn (rt : Runtime) (d : Dialect) (db : Db) (scope : Scope) (k : StreamKind) :
    Except Exn ChainVerification :=
  ((verifyChain rt scope k).exec (engine d) (.idle db [])).1

/-- `verify_chain` reports the stream valid. -/
def ReportsValid (rt : Runtime) (d : Dialect) (db : Db) (scope : Scope) (k : StreamKind) : Prop :=
  ∃ v, verifyChainOn rt d db scope k = .ok v ∧ v.valid = true

/-- The workspace row that `_assert_scope` finds is of the tenant. -/
def scopeAsserted (db : Db) (scope : Scope) : Bool :=
  (db.workspaces.find? (fun w => w.id == scope.workspaceId.text)).any
    (fun w => w.tenantId == scope.tenantId.text)

theorem eval_assertScope (db : Db) (scope : Scope) :
    (assertScope scope).eval (engine d) db []
      = if scopeAsserted db scope then .ok ((), [])
        else .error (.scopeNotFound
          (py "workspace does not exist in the requested tenant")) := by
  unfold assertScope scopeAsserted
  rw [Body.bind_eq, eval_select_bind, Engine.view_nil]
  split
  · rfl
  · rfl

theorem eval_lockedHead (db : Db) (scope : Scope) (k : StreamKind) :
    (lockedHead scope k).eval (engine d) db []
      = match headOf db scope k with
        | some head => .ok (head, [])
        | none => .error (.scopeNotFound
            (py "workspace stream heads have not been initialized")) := by
  unfold lockedHead
  rw [Body.bind_eq, eval_selectForUpdate_bind, Engine.view_nil]
  cases headOf db scope k with
  | none => rfl
  | some head => rfl

/-- The rows of a stream as `verify_chain` reads them. -/
def chainRows (db : Db) (scope : Scope) (k : StreamKind) : List AppendOnlyMixin :=
  (bySequence (db.stream scope k)).map Row.mixin

/-- What `verify_chain` answers. -/
theorem verifyChainOn_eq (db : Db) (scope : Scope) (k : StreamKind) :
    verifyChainOn rt d db scope k =
      if scopeAsserted db scope then
        match verifyRows rt scope k (bySequence (db.stream scope k)) 1 none with
        | .error e => .error e
        | .ok (q, some message) =>
            .ok ⟨k.value, false, (bySequence (db.stream scope k)).length, q, some message⟩
        | .ok (q, none) =>
            match headOf db scope k with
            | none => .error (.scopeNotFound
                (py "workspace stream heads have not been initialized"))
            | some head =>
                .ok (headVerification k (bySequence (db.stream scope k)).length q head)
      else .error (.scopeNotFound (py "workspace does not exist in the requested tenant")) := by
  unfold verifyChainOn verifyChain verifyChainBody
  rw [exec_readSession_noFaults, Body.bind_eq, eval_bind, eval_assertScope]
  cases scopeAsserted db scope with
  | false => rfl
  | true =>
    simp only [if_true, Body.bind_eq, eval_select_bind, Engine.view_nil]
    cases hv : verifyRows rt scope k (bySequence (db.stream scope k)) 1 none with
    | error e => rfl
    | ok r =>
      obtain ⟨q, message⟩ := r
      cases message with
      | some message => rfl
      | none =>
        simp only [Body.ofExcept, Body.ret_bind, eval_bind, eval_lockedHead]
        cases headOf db scope k with
        | none => rfl
        | some head => rfl

theorem headVerification_valid {k : StreamKind} {n : Nat} {q : Option PyStr}
    {head : StreamHeadRecord} :
    (headVerification k n q head).valid = true ↔ head.lastSequence = n ∧ head.lastHash = q := by
  unfold headVerification
  split
  · next hne => simpa [or_iff_not_imp_left] using hne
  · next hne => simpa using hne

/-- **`verify_chain` reports a stream valid exactly where** its scope exists,
its rows form a chain of verified rows, and its head is the tip. -/
theorem verifyChain_valid_iff (db : Db) (scope : Scope) (k : StreamKind) :
    ReportsValid rt d db scope k ↔
      scopeAsserted db scope = true ∧
        Chained rowLinks (Verified rt scope k) 0 none (chainRows db scope k) ∧
        ∃ head, headOf db scope k = some head ∧
          (head.lastSequence, head.lastHash) = tip rowLinks (0, none) (chainRows db scope k) := by
  have hrows := fun q => @verifyRows_none rt scope k (bySequence (db.stream scope k)) 0 none q
  unfold ReportsValid
  rw [verifyChainOn_eq]
  cases hs : scopeAsserted db scope with
  | false => simp
  | true =>
    simp only [if_true, true_and]
    constructor
    · rintro ⟨v, hv, hvalid⟩
      split at hv
      · cases hv
      · cases hv
        cases hvalid
      · next q hq =>
        obtain ⟨hchain, rfl⟩ := (hrows q).mp hq
        have hlen := tip_index hchain
        split at hv
        · cases hv
        · next head hh =>
          cases hv
          obtain ⟨hseq, hhash⟩ := headVerification_valid.mp hvalid
          refine ⟨hchain, head, hh, ?_⟩
          rw [Prod.ext_iff, hseq, hhash]
          exact ⟨by simpa [chainRows] using hlen.symm, rfl⟩
    · rintro ⟨hchain, head, hh, htip⟩
      have hlen := tip_index hchain
      have hq := (hrows _).mpr ⟨hchain, rfl⟩
      rw [show (0 + 1 : Nat) = 1 from rfl] at hq
      rw [Prod.ext_iff] at htip
      rw [hq]
      simp only [hh]
      refine ⟨_, rfl, headVerification_valid.mpr ⟨?_, htip.2⟩⟩
      have hseq := htip.1.trans hlen
      simpa [chainRows] using hseq

/-! ## §3. Reachable databases. -/

/-- A sealed row is a verified one. -/
theorem Sealed.verified {scope : Scope} {k : StreamKind} {m : AppendOnlyMixin}
    (h : Sealed rt scope k m) : Verified rt scope k m := by
  refine ⟨?_, h.digest⟩
  obtain ⟨schema, createdAt, data, hb⟩ := h.binds
  obtain ⟨fields, hf, ht, hw, hk, hn, hp, _⟩ := get_basisDict schema scope.tenantId.text
    scope.workspaceId.text k.value m.sequence m.previousHash createdAt data
  rw [hb, hf]
  simp [basisNames, ht, hw, hk, hn, hp]

/-- A chain is in the order of its sequence numbers. -/
theorem chainRows_of_chained {ok : AppendOnlyMixin → Prop} {db : Db} {scope : Scope}
    {k : StreamKind} (h : Chained rowLinks ok 0 none ((db.stream scope k).map Row.mixin)) :
    chainRows db scope k = (db.stream scope k).map Row.mixin := by
  have hsorted : (db.stream scope k).Pairwise (fun a b => a.mixin.sequence ≤ b.mixin.sequence) := by
    have hpair := (chained_pairwise h).1
    rw [List.pairwise_map] at hpair
    refine hpair.imp ?_
    intro a b hab
    exact le_of_lt hab
  rw [chainRows, bySequence, hsorted.insertionSort_eq]

/-- A workspace of the database is found by `_assert_scope`. -/
theorem scopeAsserted_of_hasWorkspace {db : Db} {scope : Scope} (hi : StoreInv rt db)
    (h : HasWorkspace db scope) : scopeAsserted db scope = true := by
  obtain ⟨w, hw, ht, hid⟩ := h
  have hfind : db.workspaces.find? (fun x => x.id == scope.workspaceId.text) = some w := by
    have hnd := hi.workspaceIds
    obtain ⟨pre, post, hl⟩ := List.append_of_mem hw
    rw [hl, List.map_append, List.nodup_append] at hnd
    have hpre : pre.find? (fun x => x.id == scope.workspaceId.text) = none := by
      rw [List.find?_eq_none]
      intro x hx hxe
      rw [beq_iff_eq, ← hid] at hxe
      exact hnd.2.2 x.id (List.mem_map.mpr ⟨x, hx, rfl⟩) w.id (by simp) hxe
    rw [hl, List.find?_append, hpre, Option.none_or, List.find?_cons_of_pos (by simp [hid])]
  rw [scopeAsserted, hfind]
  simp [ht]

/-- **The chain of one stream**: its rows are numbered from 1, each names the
hash of the one before, each is the digest of its basis, the basis names its
place, and the head stands behind the last row. -/
structure StreamChain (rt : Runtime) (db : Db) (scope : Scope) (k : StreamKind) : Prop where
  sequences : (db.stream scope k).map (fun r => r.mixin.sequence)
    = (List.range (db.stream scope k).length).map (fun i : Nat => (i : Int) + 1)
  first : ∀ r, (db.stream scope k).head? = some r → r.mixin.previousHash = none
  linked : (db.stream scope k).IsChain
    (fun a b => b.mixin.previousHash = some a.mixin.recordHash)
  digests : ∀ r ∈ db.stream scope k, sha256Json rt r.mixin.basisJson = .ok r.mixin.recordHash
  names : ∀ r ∈ db.stream scope k,
    basisNames r.mixin.basisJson scope k r.mixin.sequence r.mixin.previousHash = true
  head : ∃ h, headOf db scope k = some h ∧ h.lastSequence = (db.stream scope k).length ∧
    h.lastHash = (db.stream scope k).getLast?.map (fun r => r.mixin.recordHash)

theorem ChainOk.streamChain {db : Db} {scope : Scope} {k : StreamKind}
    (h : ChainOk rt db scope k) : StreamChain rt db scope k := by
  obtain ⟨hchain, head, hh, htip⟩ := h
  have hsealed : ∀ r ∈ db.stream scope k, Sealed rt scope k r.mixin := by
    intro r hr
    exact chained_forall hchain _ (List.mem_map.mpr ⟨r, hr, rfl⟩)
  rw [Prod.ext_iff] at htip
  refine ⟨?_, ?_, ?_, fun r hr => (hsealed r hr).digest, fun r hr => (hsealed r hr).verified.names,
    head, hh, ?_, ?_⟩
  · have hindex := chained_index hchain
    rw [List.map_map, List.length_map] at hindex
    simpa [Function.comp_def, Int.add_comm] using hindex
  · intro r hr
    exact chained_first hchain r.mixin (by rw [List.head?_map, hr]; rfl)
  · have hlinked := chained_isChain hchain
    rwa [List.isChain_map] at hlinked
  · have hseq := htip.1.trans (tip_index hchain)
    simpa using hseq
  · have hhash := htip.2.trans (tip_digest 0 _)
    rw [List.getLast?_map, Option.map_map] at hhash
    exact hhash

/-- The invariant of the store, as the verifier sees it. -/
theorem StoreInv.reportsValid {db : Db} {scope : Scope} (hi : StoreInv rt db)
    (hw : HasWorkspace db scope) (k : StreamKind) : ReportsValid rt d db scope k := by
  obtain ⟨hchain, head, hh, htip⟩ := hi.chains scope hw k
  rw [verifyChain_valid_iff, chainRows_of_chained hchain]
  exact ⟨scopeAsserted_of_hasWorkspace hi hw, hchain.imp (fun _ hm => Sealed.verified hm), head, hh,
    htip⟩

/-- **The chains hold after every run**: whatever calls a run consists of,
whatever of them fail or are replays, every stream of every workspace is a
chain that ends at its head, and `verify_chain` reports it valid. -/
theorem chains_after_run (calls : List Issued) (scope : Scope)
    (hw : HasWorkspace (runCalls rt d Db.empty calls) scope) (k : StreamKind) :
    StreamChain rt (runCalls rt d Db.empty calls) scope k ∧
      ReportsValid rt d (runCalls rt d Db.empty calls) scope k := by
  have hi : StoreInv rt (runCalls rt d Db.empty calls) := storeInv_run calls (storeInv_empty rt)
  exact ⟨(hi.chains scope hw k).streamChain, hi.reportsValid hw k⟩

theorem chains_after_run_sample :
    StreamChain .ascii (runCalls .ascii .sqlite Db.empty sampleRun) sampleScope .receipts ∧
      ReportsValid .ascii .sqlite (runCalls .ascii .sqlite Db.empty sampleRun) sampleScope
        .receipts :=
  chains_after_run sampleRun sampleScope (sampleRun_hasWorkspace .sqlite) .receipts

end Lyte
