import Lyte.Lib.Reading
import Lyte.Persistence.Idempotency
import Lyte.Persistence.Verify

/-
  Lyte.Persistence.VerifyConcurrency — `verify_chain` among writers.

  The verifier reads the rows of a stream with one statement and its head with
  another; each sees what is committed when it runs.  A writer that commits
  between the two moves the head past the rows that were read:

      verifyChain_interleaved   in every interleaving with calls of the store,
                                an intact stream is reported valid if and only
                                if nothing was appended to it between the two.
-/

namespace Lyte

open Transact HashChain

variable {rt : Runtime} {d : Dialect}

/-! ## §1. A stream among commits. -/

/-- **Whatever a call of the store commits, a stream that is a chain goes on as
one.** -/
theorem ChainOk.effect {db : Db} {ws : List Write} {s : Scope} {k : StreamKind}
    (he : Effect rt d db ws) (hc : ChainOk rt db s k) :
    ChainOk rt ((engine d).commit db ws) s k := by
  induction he with
  | nothing => exact hc
  | tenant r => exact ⟨hc.chain, hc.head⟩
  | workspace clock _ _ => exact hc.workspace
  | append _ _ _ hext hnd _ => exact hc.append hext hnd
  | seq _ _ ih ih' =>
    rw [Engine.commit_append]
    exact ih' (ih hc)

theorem ChainOk.env {held : List RowLock} {db db' : Db} {s : Scope} {k : StreamKind}
    (h : Env (engine d) index (Effect rt d) held db db') (hc : ChainOk rt db s k) :
    ChainOk rt db' s k := by
  induction h with
  | refl => exact hc
  | commit _ hG _ _ ih => exact ih.effect hG

/-- A workspace that was found is found again. -/
theorem scopeAsserted_grows {db db' : Db} {scope : Scope} (h : scopeAsserted db scope = true)
    (hg : Grows db db') : scopeAsserted db' scope = true := by
  obtain ⟨post, hpost⟩ := hg.workspaces
  unfold scopeAsserted at h ⊢
  rw [← hpost, List.find?_append]
  cases hf : db.workspaces.find? (fun w => w.id == scope.workspaceId.text) with
  | none =>
    rw [hf] at h
    cases h
  | some w =>
    rw [hf] at h
    exact h

/-- A stream only grows at its end. -/
theorem stream_grows {db db' : Db} (hg : Grows db db') (scope : Scope) (k : StreamKind) :
    db.stream scope k <+: db'.stream scope k := by
  obtain ⟨post, hpost⟩ := hg.rows k
  refine ⟨post.filter (fun r => r.mixin.inScope scope), ?_⟩
  unfold Db.stream
  rw [← hpost, List.filter_append]

/-! ## §2. The verdict. -/

theorem assertScope_readOnly (scope : Scope) : (assertScope scope).ReadOnly := by
  intro v
  show Body.ReadOnly (if _ then _ else _)
  split
  · trivial
  · trivial

theorem lockedHead_readOnly (scope : Scope) (k : StreamKind) : (lockedHead scope k).ReadOnly := by
  unfold lockedHead
  rw [Body.bind_eq]
  refine (Body.readOnly_selectForUpdate _ _).bind (fun head => ?_)
  cases head with
  | none => trivial
  | some h => trivial

/-- Behind the read of a head comes what follows that head. -/
theorem lockedHead_after {α : Type} {scope : Scope} {k : StreamKind} {db : Db}
    {head : StreamHeadRecord} (h : headOf db scope k = some head)
    (f : StreamHeadRecord → StoreBody α) :
    ((lockedHead scope k).bind f).after [db] = (f head).after [] := by
  unfold lockedHead
  rw [Body.bind_eq]
  simp only [Body.selectForUpdate, Body.stmt_bind, Body.bind, Body.after, h]
  rfl

/-- `verify_chain` only reads. -/
theorem verifyChainBody_readOnly (scope : Scope) (k : StreamKind) :
    (verifyChainBody rt scope k).ReadOnly := by
  unfold verifyChainBody
  refine (assertScope_readOnly scope).bind (fun _ => ?_)
  refine (Body.readOnly_select _).bind (fun records => ?_)
  refine (Body.readOnly_ofExcept _).bind (fun result => ?_)
  obtain ⟨expectedPrevious, message⟩ := result
  cases message with
  | some message => trivial
  | none => exact (lockedHead_readOnly scope k).bind (fun _ => trivial)

/-- The rows of a chain, as the loop of `verify_chain` walks them. -/
theorem ChainOk.verifyRows {db : Db} {scope : Scope} {k : StreamKind} (hc : ChainOk rt db scope k) :
    ∃ q, Lyte.verifyRows rt scope k (bySequence (db.stream scope k)) 1 none = .ok (q, none) ∧
      (((db.stream scope k).length : Int), q)
        = tip rowLinks (0, none) ((db.stream scope k).map Row.mixin) ∧
      (bySequence (db.stream scope k)).length = (db.stream scope k).length := by
  have hrows : chainRows db scope k = (db.stream scope k).map Row.mixin :=
    chainRows_of_chained hc.chain
  have hverified : Chained rowLinks (Verified rt scope k) 0 none (chainRows db scope k) := by
    rw [hrows]
    exact hc.chain.imp (fun _ hm => Sealed.verified hm)
  have hlen := tip_index hc.chain
  rw [List.length_map, Int.zero_add] at hlen
  refine ⟨_, (verifyRows_none (n := 0)).mpr ⟨hverified, rfl⟩, ?_, ?_⟩
  · show (_, (tip rowLinks (0, none) (chainRows db scope k)).2) = _
    rw [hrows, ← hlen]
  · exact List.length_insertionSort _ _

/-- **The verdict on a stream that is a chain**, when its rows and its head are
read at different moments. -/
theorem verifyChainBody_after {scope : Scope} {k : StreamKind} {db₁ db₂ db₃ : Db}
    (hs : scopeAsserted db₁ scope = true) (h₂ : ChainOk rt db₂ scope k)
    (h₃ : ChainOk rt db₃ scope k) (hg : Grows db₂ db₃) :
    ∃ v, (verifyChainBody rt scope k).after [db₁, db₂, db₃] = .ret v ∧
      (v.valid = true ↔ db₃.stream scope k = db₂.stream scope k) := by
  obtain ⟨q, hq, htip, hlen⟩ := h₂.verifyRows
  obtain ⟨head, hh, htip'⟩ := h₃.head
  refine ⟨headVerification k (bySequence (db₂.stream scope k)).length q head, ?_, ?_⟩
  · have hassert : scopeAsserted db₁ scope = true := hs
    unfold scopeAsserted at hassert
    unfold verifyChainBody assertScope lockedHead
    show ((if _ then _ else _ : StoreBody Unit).bind _).after [db₂, db₃] = _
    rw [if_pos hassert]
    show ((Body.ofExcept (Lyte.verifyRows rt scope k (bySequence (db₂.stream scope k)) 1 none)).bind
      _).after [db₃] = _
    rw [hq]
    exact lockedHead_after hh _
  · rw [headVerification_valid, hlen]
    obtain ⟨post, hpost⟩ := stream_grows hg scope k
    have hlen' := tip_index h₃.chain
    rw [← htip', List.length_map, Int.zero_add] at hlen'
    constructor
    · -- as many rows as before, so none was added
      rintro ⟨hseq, _⟩
      have heq : (db₃.stream scope k).length = (db₂.stream scope k).length := by
        have hcast := hlen'.symm.trans hseq
        exact Int.ofNat.inj hcast
      rw [← hpost, List.length_append] at heq
      have hnil : post = [] := List.eq_nil_of_length_eq_zero (by omega)
      rw [← hpost, hnil, List.append_nil]
    · intro heq
      rw [heq, ← htip, Prod.mk.injEq] at htip'
      exact htip'

/-- It has not come to its end before it has read the head. -/
theorem verifyChainBody_waits {scope : Scope} {k : StreamKind} {db₁ db₂ : Db}
    (hs : scopeAsserted db₁ scope = true) (h₂ : ChainOk rt db₂ scope k) :
    (verifyChainBody rt scope k).Selects ∧ ((verifyChainBody rt scope k).after [db₁]).Selects ∧
      ((verifyChainBody rt scope k).after [db₁, db₂]).Locks := by
  obtain ⟨q, hq, _, _⟩ := h₂.verifyRows
  unfold scopeAsserted at hs
  unfold verifyChainBody assertScope lockedHead
  refine ⟨⟨_, rfl⟩, ?_, ?_⟩
  · show (((if _ then _ else _ : StoreBody Unit).bind _).after []).Selects
    rw [if_pos hs]
    exact ⟨_, rfl⟩
  · show (((if _ then _ else _ : StoreBody Unit).bind _).after [db₂]).Locks
    rw [if_pos hs]
    show (((Body.ofExcept (Lyte.verifyRows rt scope k (bySequence (db₂.stream scope k)) 1 none)).bind
      _).after []).Locks
    rw [hq]
    exact ⟨_, _, rfl⟩

/-! ## §3. Among other calls. -/

section Among

variable {ι : Type} [DecidableEq ι] {F : Exn → Prop}

/-- A call of `verify_chain`, and any calls of the store. -/
def verifyAmong (rt : Runtime) (d : Dialect) (scope : Scope) (k : StreamKind)
    (calls : ι → StoreCall) : Option ι → StoreProg (StoreResult ⊕ ChainVerification)
  | none => (verifyChain rt scope k).bind (fun v => .ret (.inr v))
  | some j => ((calls j).prog rt d).bind (fun r => .ret (.inl r))

/-- What is reached from committed rows `db`, with the rows that each statement
of `verify_chain` saw. -/
abbrev VerifyObserves (rt : Runtime) (d : Dialect) (F : Exn → Prop) (scope : Scope)
    (k : StreamKind) (calls : ι → StoreCall) (db : Db) (seen : List Db)
    (c : Config Db Write RowLock Exn (StoreResult ⊕ ChainVerification) (Option ι)) : Prop :=
  Observes (engine d) index F none (.start db (verifyAmong rt d scope k calls)) seen c

omit [DecidableEq ι] in
/-- All of these calls keep the guarantee of the store. -/
theorem verifyAmong_sat (scope : Scope) (k : StreamKind) (calls : ι → StoreCall) (db : Db)
    (i : Option ι) :
    Sat (engine d) index F (Effect rt d) (fun _ _ _ => True) (verifyAmong rt d scope k calls i) db
      [] [] [] := by
  cases i with
  | none =>
    show Sat _ _ _ _ _ ((readSession (verifyChainBody rt scope k)).bind _) _ _ _ _
    rw [readSession_map]
    exact ((verifyChainBody_readOnly scope k).map _).sat db [] []
  | some j =>
    exact ((calls j).sat db (fun _ _ _ hc hf => hc.effect hf) (fun _ => .nothing)).map
      (fun _ _ _ _ => trivial)

/-- **When `verify_chain` reports an intact stream valid**: whatever the other
calls are and however their statements come between its own, the stream is
reported valid exactly if nothing was appended to it between the SELECT of its
rows and the SELECT of its head; and it raises only where a statement was made
to. -/
theorem verifyChain_interleaved (rt : Runtime) (d : Dialect) (F : Exn → Prop) (scope : Scope)
    (k : StreamKind) (calls : ι → StoreCall) {db : Db} (hs : scopeAsserted db scope = true)
    (hc : ChainOk rt db scope k) {seen : List Db}
    {c : Config Db Write RowLock Exn (StoreResult ⊕ ChainVerification) (Option ι)}
    (h : VerifyObserves rt d F scope k calls db seen c) :
    (∀ r, (c.calls none).prog = .ret r → ∃ v assertedOn rowsOf headOf' rest,
      r = .inr v ∧ seen = assertedOn :: rowsOf :: headOf' :: rest ∧
      (v.valid = true ↔ headOf'.stream scope k = rowsOf.stream scope k)) ∧
    ∀ e, (c.calls none).prog = .raise e → F e := by
  have hstart : Inv (engine d) index F (Effect rt d) (fun _ _ _ _ => True) db
      (.start db (verifyAmong rt d scope k calls)) :=
    reach_inv (index_lawful d) (verifyAmong_sat scope k calls db) .refl
  obtain ⟨_, hmoves, _⟩ := h.moves (index_lawful d) hstart
  have hsession := h.session ((verifyChainBody_readOnly scope k).map Sum.inr)
    (by rw [← readSession_map]; rfl)
  obtain ⟨_, hprog⟩ := hsession
  rw [Body.after_map] at hprog
  -- what `verify_chain` has come to is decided by the rows that it saw
  have hdone : ∀ b : StoreBody (StoreResult ⊕ ChainVerification), ((verifyChainBody rt scope k).after seen).bind
      (fun v => .ret (Sum.inr v)) = b → b.Done →
      ∃ v db₁ db₂ db₃ rest, b = .ret (.inr v) ∧ seen = db₁ :: db₂ :: db₃ :: rest ∧
        (v.valid = true ↔ db₃.stream scope k = db₂.stream scope k) := by
    rintro b rfl hdone
    have hchain : ∀ x ∈ seen, ChainOk rt x scope k := fun x hx =>
      hc.env (List.rel_of_pairwise_cons hmoves hx)
    have hassert : ∀ x ∈ seen, scopeAsserted x scope = true := fun x hx =>
      scopeAsserted_grows hs (env_grows (List.rel_of_pairwise_cons hmoves hx))
    match seen, hmoves, hchain, hassert, hdone with
    | [], _, _, _, hdone =>
      rw [Body.after_nil] at hdone
      exact absurd hdone ((verifyChainBody_waits hs hc).1.bind _).not_done
    | [db₁], _, hchain, hassert, hdone =>
      exact absurd hdone ((verifyChainBody_waits (hassert db₁ (by simp)) hc).2.1.bind _).not_done
    | [db₁, db₂], _, hchain, hassert, hdone =>
      exact absurd hdone ((verifyChainBody_waits (hassert db₁ (by simp))
        (hchain db₂ (by simp))).2.2.bind _).not_done
    | db₁ :: db₂ :: db₃ :: rest, hmoves, hchain, hassert, _ =>
      have hgrows : Grows db₂ db₃ := by
        simp only [List.pairwise_cons] at hmoves
        exact env_grows (hmoves.2.2.1 db₃ (by simp))
      obtain ⟨v, hv, hvalid⟩ := verifyChainBody_after (hassert db₁ (by simp))
        (hchain db₂ (by simp)) (hchain db₃ (by simp)) hgrows
      refine ⟨v, db₁, db₂, db₃, rest, ?_, rfl, hvalid⟩
      rw [show db₁ :: db₂ :: db₃ :: rest = [db₁, db₂, db₃] ++ rest from rfl, Body.after_append, hv,
        Body.after_ret]
      rfl
  constructor
  · intro r hr
    rcases hprog with hp | ⟨a, hp, ha⟩ | ⟨e, hp, _⟩
    · rw [hr] at hp
      exact absurd hp.symm (readSession_ne_ret _ r)
    · rw [hr] at hp
      cases hp
      obtain ⟨v, db₁, db₂, db₃, rest, hv, hseen, hvalid⟩ := hdone _ ha
        (.inl ⟨_, rfl⟩)
      cases hv
      exact ⟨v, db₁, db₂, db₃, rest, rfl, hseen, hvalid⟩
    · rw [hr] at hp
      cases hp
  · intro e he
    rcases hprog with hp | ⟨a, hp, _⟩ | ⟨e', hp, hraise | hF⟩
    · rw [he] at hp
      exact absurd hp.symm (readSession_ne_raise _ e)
    · rw [he] at hp
      cases hp
    · obtain ⟨v, _, _, _, _, hv, _⟩ := hdone _ hraise (.inr ⟨_, rfl⟩)
      cases hv
    · rw [he] at hp
      cases hp
      exact hF

/-- The rows after a call whose result is only renamed. -/
theorem exec_map_db {α β : Type} (p : StoreProg α) (f : α → β) (s : Session Db Write Exn) :
    ((p.bind (fun a => .ret (f a))).exec (engine d) s).2.db = (p.exec (engine d) s).2.db := by
  rw [exec_bind]
  rcases p.exec (engine d) s with ⟨r, s'⟩
  cases r with
  | ok a => rfl
  | error e => rfl

/-- **An append between the two statements**: `verify_chain` reads the rows, one
other call runs from its beginning to its end, `verify_chain` reads the head. -/
theorem verifyChain_overtaken (rt : Runtime) (d : Dialect) (F : Exn → Prop) (scope : Scope)
    (k : StreamKind) (call : StoreCall) {db : Db} (hs : scopeAsserted db scope = true)
    (hc : ChainOk rt db scope k) :
    ∃ seen c v, VerifyObserves rt d F scope k (fun _ : Unit => call) db seen c ∧
      (c.calls none).prog = .ret (.inr v) ∧
      (v.valid = true ↔
        (Issued.exec rt d ⟨call, []⟩ db).2.stream scope k = db.stream scope k) := by
  let body : StoreBody (StoreResult ⊕ ChainVerification) :=
    (verifyChainBody rt scope k).bind (fun v => .ret (.inr v))
  let progs := verifyAmong rt d scope k (fun _ : Unit => call)
  have hafter : ∀ dbs, body.after dbs
      = ((verifyChainBody rt scope k).after dbs).bind (fun v => .ret (.inr v)) :=
    fun dbs => Body.after_map _ _ dbs
  have hinv : Inv (engine d) index F (Effect rt d) (fun _ _ _ _ => True) db (.start db progs) :=
    reach_inv (index_lawful d) (verifyAmong_sat scope k _ db) .refl
  obtain ⟨hselect, hselect', hlock⟩ := verifyChainBody_waits hs hc
  -- it asserts the scope and reads the rows
  have h₁ : VerifyObserves rt d F scope k (fun _ : Unit => call) db [db]
      ((Config.start db progs).put none ⟨readSession (body.after [db]), [], []⟩) :=
    Observes.refl.select (hselect.bind _) (by
      rw [← readSession_map]
      rfl)
  have h₂ := h₁.select (b := body.after [db]) (by
    rw [hafter]
    exact hselect'.bind _) (put_self _ _ ⟨readSession (body.after [db]), [], []⟩)
  rw [← Body.after_append] at h₂
  -- the other call runs, and holds no lock at its end
  generalize hc₂ : ((Config.start db progs).put none ⟨readSession (body.after [db]), [], []⟩).put
    none _ = c₂ at h₂
  have hnone₂ : c₂.calls none = ⟨readSession (body.after [db, db]), [], []⟩ := by
    rw [← hc₂]
    exact put_self _ _ _
  have hsome₂ : c₂.calls (some ()) = ⟨progs (some ()), [], []⟩ := by
    rw [← hc₂]
    rfl
  have hdb₂ : c₂.db = db := by
    rw [← hc₂]
    rfl
  have halone : c₂.Alone (some ()) := by
    intro j hj
    cases j with
    | none =>
      rw [hnone₂]
      exact ⟨rfl, rfl⟩
    | some u => exact absurd rfl hj
  obtain ⟨c₃, hsteps, hran⟩ := steps_exec (F := F) index [] halone (by simp)
  have h₃ : VerifyObserves rt d F scope k (fun _ : Unit => call) db [db, db] c₃ :=
    h₂.others (by simp) hsteps
  have hnone₃ : c₃.calls none = ⟨readSession (body.after [db, db]), [], []⟩ := by
    rw [hran.others none (by simp), hnone₂]
  have hdb₃ : c₃.db = (Issued.exec rt d ⟨call, []⟩ db).2 := by
    rw [hran.db, hsome₂, hdb₂]
    exact exec_map_db _ _ _
  have hfree : ∀ j, j ≠ none → (c₃.calls j).held = [] := by
    intro j hj
    cases j with
    | none => exact absurd rfl hj
    | some u =>
      have hsat := (h₃.moves (index_lawful d) hinv).1.sat (some ())
      rw [hran.prog] at hsat
      generalize Prog.exec _ _ _ = r at hsat
      obtain ⟨r, s⟩ := r
      cases r with
      | ok a => exact hsat.2.1
      | error e => exact hsat.2.1
  -- it reads the head
  obtain ⟨held, h₄⟩ := h₃.lock (by
    rw [hafter]
    exact hlock.bind _) hnone₃ hfree
  rw [← Body.after_append] at h₄
  have henv : Env (engine d) index (Effect rt d) [] db c₃.db := by
    rw [hdb₃]
    exact Issued.exec_env ⟨call, []⟩ db
  obtain ⟨v, hv, hvalid⟩ := verifyChainBody_after hs hc (hc.env henv) (env_grows henv)
  have hend : body.after ([db, db] ++ [c₃.db]) = .ret (.inr v) := by
    rw [hafter]
    show (Body.after _ [db, db, c₃.db]).bind _ = _
    rw [hv]
    rfl
  rw [hend] at h₄
  refine ⟨_, _, v, h₄.close (put_self _ _ _), ?_, ?_⟩
  · rw [put_self]
  · rw [← hdb₃]
    exact hvalid

end Among

/-! ## §4. A false alarm. -/

/-- A receipt for the sample workspace. -/
def sampleAppend : StoreCall := (Issued.plain (.appendReceipt sampleScope sampleReceipt none none)
  "c").call

theorem sampleSetup_asserted : scopeAsserted (runCalls .ascii .sqlite Db.empty sampleSetup)
    sampleScope = true :=
  scopeAsserted_of_hasWorkspace (storeInv_run sampleSetup (storeInv_empty .ascii))
    (sampleSetup_hasWorkspace .sqlite)

theorem sampleSetup_chainOk (k : StreamKind) :
    ChainOk .ascii (runCalls .ascii .sqlite Db.empty sampleSetup) sampleScope k :=
  (storeInv_run sampleSetup (storeInv_empty .ascii)).chains sampleScope
    (sampleSetup_hasWorkspace .sqlite) k

theorem sampleAppend_overtakes : ∃ seen c v,
    VerifyObserves .ascii .sqlite noFault sampleScope .receipts (fun _ : Unit => sampleAppend)
        (runCalls .ascii .sqlite Db.empty sampleSetup) seen c ∧
      (c.calls none).prog = .ret (.inr v) ∧ v.valid = false := by
  obtain ⟨seen, c, v, hc, hv, hvalid⟩ := verifyChain_overtaken .ascii .sqlite noFault sampleScope
    .receipts sampleAppend sampleSetup_asserted (sampleSetup_chainOk .receipts)
  refine ⟨seen, c, v, hc, hv, ?_⟩
  rw [Bool.eq_false_iff, ne_eq, hvalid]
  intro heq
  have hlen := congrArg List.length heq
  revert hlen
  decide +kernel

theorem verifyChain_interleaved_sample : ∃ seen c,
    VerifyObserves .ascii .sqlite noFault sampleScope .receipts (fun _ : Unit => sampleAppend)
        (runCalls .ascii .sqlite Db.empty sampleSetup) seen c ∧
      ∃ v assertedOn rowsOf headOf' rest, (c.calls none).prog = .ret (.inr v) ∧
        v.valid = false ∧ seen = assertedOn :: rowsOf :: headOf' :: rest ∧
        headOf'.stream sampleScope .receipts ≠ rowsOf.stream sampleScope .receipts := by
  obtain ⟨seen, c, v, hc, hv, hfalse⟩ := sampleAppend_overtakes
  obtain ⟨v', db₁, db₂, db₃, rest, hr, hseen, hvalid⟩ := (verifyChain_interleaved .ascii .sqlite
    noFault sampleScope .receipts _ sampleSetup_asserted (sampleSetup_chainOk .receipts) hc).1 _ hv
  cases hr
  refine ⟨seen, c, hc, v, db₁, db₂, db₃, rest, hv, hfalse, hseen, fun heq => ?_⟩
  rw [hvalid.mpr heq] at hfalse
  cases hfalse

/-- **`verify_chain` raises a false alarm**: a receipt that is appended between
its two reads makes an intact stream look broken. -/
theorem verifyChain_false_alarm : ¬ ∀ (rt : Runtime) (d : Dialect) (scope : Scope)
    (k : StreamKind) (calls : Unit → StoreCall) (db : Db) (seen : List Db)
    (c : Config Db Write RowLock Exn (StoreResult ⊕ ChainVerification) (Option Unit)),
    scopeAsserted db scope = true → ChainOk rt db scope k →
    VerifyObserves rt d noFault scope k calls db seen c →
    ∀ v, (c.calls none).prog = .ret (.inr v) → v.valid = true := by
  intro h
  obtain ⟨seen, c, v, hc, hv, hfalse⟩ := sampleAppend_overtakes
  rw [h _ _ _ _ _ _ _ _ sampleSetup_asserted (sampleSetup_chainOk .receipts) hc v hv] at hfalse
  cases hfalse

end Lyte
