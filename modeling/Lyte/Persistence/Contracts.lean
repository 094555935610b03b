import Lyte.Persistence.Commits

/-
  Lyte.Persistence.Contracts — every operation keeps its contract.

  For each operation of the store one theorem `X_sat`: whatever other calls
  commit between its statements, it fails without effect, or returns what is
  already there, or commits rows that its relation in `Commits.lean` describes,
  in the committed state of that moment.  The guarantee `G` is a parameter: the
  operation keeps any `G` that its own commits satisfy.

  The proofs follow the text of the operations, statement by statement.
-/

namespace Lyte

open Transact HashChain

/-- How a call may fail: by a fault from outside, by a persistence error, or
because its own arguments are refused. -/
def Failure (F Refused : Exn → Prop) (e : Exn) : Prop :=
  F e ∨ e.isPersistenceError = true ∨ Refused e

section Contracts

variable {rt : Runtime} {d : Dialect} {sup : Supply} {F : Exn → Prop}
variable {G : Db → List Write → Prop}

/-! ## §1. Flushing an append. -/

/-- The locks that an append needs are those of its streams. -/
theorem guard_of_extends {scope : Scope} {appends : List (StreamKind × StreamAppend)}
    (hext : ∀ p ∈ appends, ∃ head, Extends rt scope p.1 head p.2) {w : Write} {l : RowLock}
    (hw : w ∈ appendWrites (appends.map Prod.snd)) (hl : w.guard = some l) :
    ∃ p ∈ appends, l = headLock scope p.1 := by
  obtain ⟨a, ha, hw⟩ := List.mem_flatMap.mp hw
  obtain ⟨p, hp, rfl⟩ := List.mem_map.mp ha
  obtain ⟨head, he⟩ := hext p hp
  refine ⟨p, hp, ?_⟩
  rcases List.mem_append.mp hw with hw | hw
  · obtain ⟨r, hr, rfl⟩ := List.mem_map.mp hw
    have hs := chained_forall he.chain _ (List.mem_map.mpr ⟨r, hr, rfl⟩)
    rw [addRow_guard hs.inScope (he.stream r hr)] at hl
    exact (Option.some.inj hl).symm
  · rw [List.mem_singleton.mp hw] at hl
    have hm : (Write.updateHead p.2.head).moves scope.tenantId.text scope.workspaceId.text
        p.1.value = true := he.names
    rw [moves_guard hm] at hl
    exact (Option.some.inj hl).symm

variable {X : Exn → Db → Prop} {db : Db} {held : List RowLock}

/-- A flush of appended rows, under the locks of their heads. -/
theorem sat_flush_append (rt : Runtime) (scope : Scope)
    (appends : List (StreamKind × StreamAppend)) {pending : List Write}
    {R : Unit → Db → List Write → List RowLock → Prop}
    (hext : ∀ p ∈ appends, ∃ head, Extends rt scope p.1 head p.2)
    (hlock : ∀ p ∈ appends, headLock scope p.1 ∈ held)
    (h : ∀ db', Env (engine d) index G held db db' →
      R () db' (pending ++ appendWrites (appends.map Prod.snd)) held)
    (hrefuse : ∀ db', X .integrityError db') (hX : ∀ e, F e → ∀ db', X e db') :
    (Body.flush (appendWrites (appends.map Prod.snd))).Sat (engine d) index F G R X db pending
      held := by
  refine Body.sat_flush (fun w hw l hl => ?_) h (fun db' _ => hrefuse db')
    (fun e he db' _ => hX e he db')
  obtain ⟨p, hp, rfl⟩ := guard_of_extends hext hw hl
  exact hlock p hp

/-- The same, of one stream. -/
theorem sat_flush_one {scope : Scope} {k : StreamKind} {head : StreamHeadRecord} {a : StreamAppend}
    {R : Unit → Db → List Write → List RowLock → Prop} (he : Extends rt scope k head a)
    (hlock : headLock scope k ∈ held)
    (h : ∀ db', Env (engine d) index G held db db' → R () db' (appendWrites [a]) held)
    (hrefuse : ∀ db', X .integrityError db') (hX : ∀ e, F e → ∀ db', X e db') :
    (Body.flush (appendWrites [a])).Sat (engine d) index F G R X db [] held :=
  sat_flush_append rt scope [(k, a)] (by simpa using ⟨head, he⟩) (by simpa using hlock) h
    hrefuse hX

/-! ## §2. Receipts. -/

/-- Why the arguments of `append_receipt` may be refused. -/
inductive ReceiptRefused (rt : Runtime) (sup : Supply) (scope : Scope) (draft : ReceiptDraft)
    (at_ : Stamp) : Exn → Prop
  | digest {e} : receiptRequestDigest rt draft = .error e → ReceiptRefused rt sup scope draft at_ e
  | key {key e} : idempotencyDigest rt scope key = .error e →
      ReceiptRefused rt sup scope draft at_ e
  | row {n p e} : receiptRow rt (sup.uuid 0) scope draft n p at_ = .error e →
      ReceiptRefused rt sup scope draft at_ e
  | keyRow {kd rd hash n p e} : idempotencyRow rt (sup.uuid 1) scope kd rd hash n p at_ = .error e →
      ReceiptRefused rt sup scope draft at_ e

/-- A receipt that the key table names for this request. -/
def ReceiptReplay (scope : Scope) (keyDigest : Option PyStr) (requestDigest : PyStr)
    (receipt : ReceiptRecord) (db : Db) : Prop :=
  ∃ record ∈ db.idempotency, record.inScope scope = true ∧ some record.keyDigest = keyDigest ∧
    record.requestDigest = requestDigest ∧ receipt ∈ db.receipts ∧
    receipt.inScope scope = true ∧ receipt.recordHash = record.responseReceiptHash

theorem ReceiptReplay.grows {scope : Scope} {keyDigest : Option PyStr} {requestDigest : PyStr}
    {receipt : ReceiptRecord} {db db' : Db}
    (h : ReceiptReplay scope keyDigest requestDigest receipt db) (hg : Grows db db') :
    ReceiptReplay scope keyDigest requestDigest receipt db' := by
  obtain ⟨record, hr, hs, hk, hd, hm, hrest⟩ := h
  exact ⟨record, hg.idempotency.subset hr, hs, hk, hd, hg.receipts.subset hm, hrest⟩

theorem findIdempotency_some {scope : Scope} {kd : PyStr} {record : IdempotencyRecord}
    (h : findIdempotency db scope kd = some record) :
    record ∈ db.idempotency ∧ record.inScope scope = true ∧ record.keyDigest = kd := by
  have hp := List.find?_some h
  simp only [Bool.and_eq_true, beq_iff_eq] at hp
  exact ⟨List.mem_of_find?_eq_some h, hp⟩

theorem findReceipt_some {scope : Scope} {hash : PyStr} {receipt : ReceiptRecord}
    (h : findReceipt db scope hash = some receipt) :
    receipt ∈ db.receipts ∧ receipt.inScope scope = true ∧ receipt.recordHash = hash := by
  have hp := List.find?_some h
  simp only [Bool.and_eq_true, beq_iff_eq] at hp
  exact ⟨List.mem_of_find?_eq_some h, hp⟩

/-- `_resolve_idempotent_receipt` returns a receipt with the recorded hash. -/
theorem resolveIdempotentReceipt_sat {scope : Scope} {record : IdempotencyRecord} {rd : PyStr}
    {pending : List Write} {R : ReceiptRecord → Db → List Write → List RowLock → Prop}
    (h : ∀ db' receipt, Env (engine d) index G held db db' → record.requestDigest = rd →
      receipt ∈ ((engine d).view db' pending).receipts → receipt.inScope scope = true →
      receipt.recordHash = record.responseReceiptHash → R receipt db' pending held)
    (hP : ∀ e, e.isPersistenceError = true → ∀ db', X e db') (hX : ∀ e, F e → ∀ db', X e db') :
    (resolveIdempotentReceipt scope record rd).Sat (engine d) index F G R X db pending held := by
  rw [resolveIdempotentReceipt]
  split
  · exact hP _ rfl db
  · next hrd =>
    refine Body.sat_bind (Body.sat_select (fun db' henv => ?_) (fun e he db' _ => hX e he db'))
    cases hf : findReceipt ((engine d).view db' pending) scope record.responseReceiptHash with
    | none => exact hP _ rfl db'
    | some receipt =>
      obtain ⟨hm, hs, hh⟩ := findReceipt_some hf
      exact h db' receipt henv (by simpa using hrd) hm hs hh

section Receipts

variable {scope : Scope} {draft : ReceiptDraft} {keyDigest : Option PyStr} {requestDigest : PyStr}
variable {at_ : Stamp}

/-- The lookup of a key that was found. -/
theorem resolve_replay {kd : PyStr} {record : IdempotencyRecord} {Err : Exn → Prop}
    {R : ReceiptRecord → Db → List Write → List RowLock → Prop} {dbr : Db}
    (hrec : findIdempotency dbr scope kd = some record)
    (hgrow : Env (engine d) index G held dbr db)
    (hR : ∀ receipt db' held, ReceiptReplay scope (some kd) requestDigest receipt db' →
      R receipt db' [] held)
    (hP : ∀ e, e.isPersistenceError = true → Err e) (hF : ∀ e, F e → Err e) :
    (resolveIdempotentReceipt scope record requestDigest).Sat (engine d) index F G R
      (fun e _ => Err e) db [] held := by
  obtain ⟨hm, hs, hk⟩ := findIdempotency_some hrec
  refine resolveIdempotentReceipt_sat (fun db' receipt henv hrd hmr hsr hh => hR _ _ _ ?_)
    (fun e he _ => hP e he) (fun e he _ => hF e he)
  have hg := (env_grows hgrow).trans (env_grows henv)
  exact ⟨record, hg.idempotency.subset hm, hs, by rw [hk], hrd, hmr, hsr, hh⟩

theorem appendReceiptRows_sat {P : ReceiptRecord → Db → Prop} {Err : Exn → Prop}
    (hws : HasWorkspace db scope) (hI : Err .integrityError)
    (hErr : ∀ e, Failure F (ReceiptRefused rt sup scope draft at_) e → Err e) :
    (appendReceiptRows rt sup scope draft keyDigest requestDigest at_).Sat (engine d) index F G
      (BodyPost (engine d) index G
        (fun db ws r => ReceiptCommit rt sup scope draft keyDigest requestDigest at_ db ws r) P)
      (fun e _ => Err e) db [] [] := by
  have hX : ∀ e, F e → ∀ _ : Db, Err e := fun e he _ => hErr e (.inl he)
  have hP : ∀ e : Exn, e.isPersistenceError = true → Err e := fun e he => hErr e (.inr (.inl he))
  have hR : ∀ e, ReceiptRefused rt sup scope draft at_ e → Err e :=
    fun e he => hErr e (.inr (.inr he))
  unfold appendReceiptRows
  refine Body.sat_bind (sat_lockedHead (fun db₁ head henv₁ hhead => ?_) (fun _ => hP _ rfl) hX)
  refine Body.sat_bind (Body.sat_ofExcept (fun receipt hrow => ?_) (fun e he => hR e (.row he)))
  have hws₁ := hws.grows (env_grows henv₁)
  cases hkd : keyDigest with
  | none =>
    refine Body.sat_bind (sat_flush_one (extends_one rfl hhead (receiptRow_sealed hrow))
      List.mem_cons_self (fun db₂ henv₂ => .inr fun db₃ henv₃ _ => ?_) (fun _ => hI) hX)
    have henv := henv₂.trans _ _ henv₃
    exact .plain rfl (hws₁.grows (env_grows henv)) (env_head henv List.mem_cons_self hhead) hrow
  | some kd =>
    refine Body.sat_bind (sat_lockedHead (fun db₂ head' henv₂ hhead' => ?_) (fun _ => hP _ rfl) hX)
    refine Body.sat_bind (Body.sat_ofExcept (fun row hrow' => ?_)
      (fun e he => hR e (.keyRow he)))
    have hhead₂ := env_head henv₂ List.mem_cons_self hhead
    refine Body.sat_bind (sat_flush_append rt scope
      [(.receipts, _), (.idempotency, _)] ?_ ?_ (fun db₃ henv₃ => .inr fun db₄ henv₄ _ => ?_) (fun _ => hI) hX)
    · simp only [List.mem_cons, List.not_mem_nil, or_false]
      rintro p (rfl | rfl)
      · exact ⟨head, extends_one rfl hhead₂ (receiptRow_sealed hrow)⟩
      · exact ⟨head', extends_one rfl hhead' (idempotencyRow_sealed hrow')⟩
    · simp
    · have henv := henv₃.trans _ _ henv₄
      exact .keyed rfl (hws₁.grows ((env_grows henv₂).trans (env_grows henv)))
        (env_head henv (by simp) hhead₂) (env_head henv (by simp) hhead') hrow hrow'

theorem appendReceiptBody_sat {Err : Exn → Prop} (hI : Err .integrityError)
    (hErr : ∀ e, Failure F (ReceiptRefused rt sup scope draft at_) e → Err e) :
    (appendReceiptBody rt sup scope draft keyDigest requestDigest at_).Sat (engine d) index F G
      (BodyPost (engine d) index G
        (fun db ws r => ReceiptCommit rt sup scope draft keyDigest requestDigest at_ db ws r)
        (ReceiptReplay scope keyDigest requestDigest))
      (fun e _ => Err e) db [] [] := by
  have hX : ∀ e, F e → ∀ _ : Db, Err e := fun e he _ => hErr e (.inl he)
  have hP : ∀ e : Exn, e.isPersistenceError = true → Err e := fun e he => hErr e (.inr (.inl he))
  unfold appendReceiptBody
  refine Body.sat_bind (sat_assertScope (fun db₁ _ hws => ?_) (fun _ => hP _ rfl) hX)
  cases hkd : keyDigest with
  | none => exact appendReceiptRows_sat hws hI hErr
  | some kd =>
    refine Body.sat_bind (Body.sat_select (fun db₂ henv₂ => ?_) (fun e he db' _ => hX e he db'))
    rw [Engine.view_nil]
    cases hrec : findIdempotency db₂ scope kd with
    | none => exact appendReceiptRows_sat (hws.grows (env_grows henv₂)) hI hErr
    | some record =>
      exact resolve_replay hrec .refl (fun _ _ _ h => .inl ⟨rfl, h⟩) hP
        (fun e he => hErr e (.inl he))

theorem recoverReceipt_sat {Err : Exn → Prop} (hP : ∀ e : Exn, e.isPersistenceError = true → Err e)
    (hF : ∀ e, F e → Err e) :
    (recoverReceipt scope keyDigest requestDigest).Sat (engine d) index F G
      (fun r db _ _ => ReceiptReplay scope keyDigest requestDigest r db) (fun e _ => Err e)
      db [] [] := by
  unfold recoverReceipt
  cases hkd : keyDigest with
  | none => exact hP _ rfl
  | some kd =>
    refine Body.sat_bind (Body.sat_select (fun db₁ _ => ?_) (fun e he _ _ => hF e he))
    rw [Engine.view_nil]
    cases hrec : findIdempotency db₁ scope kd with
    | none => exact hP _ rfl
    | some record => exact resolve_replay hrec .refl (fun _ _ _ h => h) hP hF

/-- The key digest that `append_receipt` works with. -/
def keyDigestOf (rt : Runtime) (scope : Scope) (key : Option PyStr) : Option PyStr :=
  match key with
  | none => none
  | some key =>
      match idempotencyDigest rt scope key with
      | .ok kd => if kd.isEmpty then none else some kd
      | .error _ => none

/-- The key, if there is one, was accepted. -/
def KeyOk (rt : Runtime) (scope : Scope) (key : Option PyStr) : Prop :=
  ∀ k, key = some k → ∃ kd, idempotencyDigest rt scope k = .ok kd

/-- The request digest that `append_receipt` works with. -/
def requestDigestOf (rt : Runtime) (draft : ReceiptDraft) : PyStr :=
  match receiptRequestDigest rt draft with
  | .ok digest => digest
  | .error _ => []

/-- **`append_receipt`** fails without effect, returns the receipt its key
names, or commits its rows. -/
theorem appendReceipt_sat {key : Option PyStr} {createdAt : Option Stamp}
    (hG : ∀ db ws r, KeyOk rt scope key ∧ ReceiptCommit rt sup scope draft
      (keyDigestOf rt scope key) (requestDigestOf rt draft) (createdAt.getD (sup.now 0).stamp)
      db ws r → index.Fresh db ws → G db ws) (hnil : ∀ db, G db []) :
    Sat (engine d) index F G
      (Outcome (engine d) index G
        (fun db ws r => KeyOk rt scope key ∧ ReceiptCommit rt sup scope draft
          (keyDigestOf rt scope key) (requestDigestOf rt draft)
          (createdAt.getD (sup.now 0).stamp) db ws r)
        (ReceiptReplay scope (keyDigestOf rt scope key) (requestDigestOf rt draft))
        (Failure F (ReceiptRefused rt sup scope draft (createdAt.getD (sup.now 0).stamp))))
      (appendReceipt rt sup scope draft key createdAt) db [] [] [] := by
  have hPstable : ∀ (a : ReceiptRecord) (db db' : Db) (held : List RowLock),
      ReceiptReplay scope (keyDigestOf rt scope key) (requestDigestOf rt draft) a db →
      Env (engine d) index G held db db' →
      ReceiptReplay scope (keyDigestOf rt scope key) (requestDigestOf rt draft) a db' :=
    fun _ _ _ _ h henv => h.grows (env_grows henv)
  refine sat_ofExcept_bind (fun rd hrd => ?_) (fun e he => .inr (.inr (.digest he)))
  have hrd' : requestDigestOf rt draft = rd := by simp [requestDigestOf, hrd]
  refine sat_ofExcept_bind (fun kd hkd => ?_) (fun e he => ?_)
  · have hkd' : keyDigestOf rt scope key = kd.filter (fun x => !x.isEmpty) := by
      cases key with
      | none => cases hkd; rfl
      | some key =>
        obtain ⟨x, hx, hk⟩ := ok_of_bind hkd
        cases hk
        cases hxe : x.isEmpty <;> simp [keyDigestOf, hx, hxe, Option.filter]
    have hok : KeyOk rt scope key := by
      intro k hk
      subst hk
      obtain ⟨x, hx, _⟩ := ok_of_bind hkd
      exact ⟨x, hx⟩
    rw [hrd', hkd'] at hG hPstable ⊢
    refine sat_tryCatch_outcome (fun e => e = .integrityError ∨
      Failure F (ReceiptRefused rt sup scope draft (createdAt.getD (sup.now 0).stamp)) e)
      (sat_transaction_outcome ((appendReceiptBody_sat (.inl rfl) (fun e he => .inr he)).imp
        (fun _ _ _ _ h => h.imp id (fun h db' henv hf => ⟨hok, h db' henv hf⟩)) (fun _ _ h => h))
        (fun e he => .inr (.inl he)) hG hnil hPstable) (fun e db' he => ?_) hPstable
    split
    · exact sat_readSession_outcome (recoverReceipt_sat (fun e he => .inr (.inl he))
        (fun e he => .inl he)) hPstable
    · next hne =>
      refine sat_raise_outcome (he.resolve_left ?_)
      rintro rfl
      exact hne rfl
  · cases key with
    | none => cases he
    | some key =>
      cases hk : idempotencyDigest rt scope key with
      | ok x =>
        change (do let b ← idempotencyDigest rt scope key; pure (some b)) = _ at he
        rw [hk] at he
        cases he
      | error e' =>
        change (do let b ← idempotencyDigest rt scope key; pure (some b)) = _ at he
        rw [hk] at he
        cases he
        exact .inr (.inr (.key hk))

end Receipts

/-! ## §3. Memory and anatomy. -/

/-- An operation that only writes has nothing to replay. -/
def Never {α : Type} (_ : α) (_ : Db) : Prop := False

/-- Any exception at all. -/
def AnyExn (_ : Exn) : Prop := True

/-- A transaction that only writes. -/
theorem sat_write {α : Type} {b : StoreBody α} {C : Db → List Write → α → Prop}
    (h : b.Sat (engine d) index F G (BodyPost (engine d) index G C Never) (fun _ _ => True) db [] [])
    (hG : ∀ db ws a, C db ws a → index.Fresh db ws → G db ws) (hnil : ∀ db, G db []) :
    Sat (engine d) index F G (Outcome (engine d) index G C Never AnyExn) (transaction b)
      db [] [] [] :=
  sat_transaction_outcome h (fun _ _ => trivial) hG hnil (fun _ _ _ _ h _ => h)

/-- Handlers that turn one exception into another. -/
theorem sat_write_handled {α : Type} {p : StoreProg α} {C : Db → List Write → α → Prop}
    {hd : Exn → StoreProg α} (hraise : ∀ e, ∃ e', hd e = .raise e')
    (h : Sat (engine d) index F G (Outcome (engine d) index G C Never AnyExn) p db [] [] []) :
    Sat (engine d) index F G (Outcome (engine d) index G C Never AnyExn) (p.tryCatch hd)
      db [] [] [] := by
  refine sat_tryCatch_outcome AnyExn h (fun e db' _ => ?_) (fun _ _ _ _ h _ => h)
  obtain ⟨e', he'⟩ := hraise e
  rw [he']
  exact sat_raise_outcome trivial

theorem appendMemoryBody_sat {scope : Scope} {draft : MemoryDraft}
    {receiptHash partitionDigest : PyStr} {at_ : Stamp} :
    (appendMemoryBody rt sup scope draft receiptHash partitionDigest at_).Sat (engine d) index F G
      (BodyPost (engine d) index G
        (fun db ws r => MemoryCommit rt sup scope draft receiptHash partitionDigest at_ db ws r)
        Never) (fun _ _ => True) db [] [] := by
  unfold appendMemoryBody
  refine Body.sat_bind (sat_assertScope ?_ (fun _ => trivial) (fun _ _ _ => trivial))
  intro db₁ _ hws
  refine Body.sat_bind (Body.sat_select ?_ (fun _ _ _ _ => trivial))
  intro db₂ henv₂
  rw [Engine.view_nil]
  cases hev : findReceipt db₂ scope receiptHash with
  | none => trivial
  | some evidence =>
    obtain ⟨hmem, hin, hhash⟩ := findReceipt_some hev
    show Body.Sat _ _ _ _ _ _ (if _ then _ else _) _ _ _
    split
    · trivial
    split
    · trivial
    refine Body.sat_bind (sat_lockedHead ?_ (fun _ => trivial) (fun _ _ _ => trivial))
    intro db₃ head henv₃ hhead
    refine Body.sat_bind (Body.sat_ofExcept ?_ (fun _ _ => trivial))
    intro row hrow
    refine Body.sat_bind (sat_flush_one (extends_one rfl hhead (memoryRow_sealed hrow))
      List.mem_cons_self ?_ (fun _ => trivial) (fun _ _ _ => trivial))
    intro db₄ henv₄
    refine .inr ?_
    intro db₅ henv₅ _
    have henv := henv₄.trans _ _ henv₅
    have hg := (env_grows henv₃).trans (env_grows henv)
    exact .mk ((hws.grows (env_grows henv₂)).grows hg) (hg.receipts.subset hmem) hin hhash
      (env_head henv List.mem_cons_self hhead) hrow

/-- The partition digest that `append_memory` works with. -/
def partitionDigestOf (rt : Runtime) (scope : Scope) : PyStr :=
  match enterpriseMemoryPartition rt scope with
  | .ok digest => digest
  | .error _ => []

/-- **`append_memory`** fails without effect or commits its row. -/
theorem appendMemory_sat {scope : Scope} {draft : MemoryDraft} {receiptHash : PyStr}
    {createdAt : Option Stamp}
    (hG : ∀ db ws r, MemoryCommit rt sup scope draft receiptHash (partitionDigestOf rt scope)
      (createdAt.getD (sup.now 0).stamp) db ws r → index.Fresh db ws → G db ws)
    (hnil : ∀ db, G db []) :
    Sat (engine d) index F G
      (Outcome (engine d) index G
        (fun db ws r => MemoryCommit rt sup scope draft receiptHash (partitionDigestOf rt scope)
          (createdAt.getD (sup.now 0).stamp) db ws r) Never AnyExn)
      (appendMemory rt sup scope draft receiptHash createdAt) db [] [] [] := by
  unfold appendMemory
  show Sat _ _ _ _ _ (if _ then _ else _) _ _ _ _
  split
  · exact sat_raise_outcome trivial
  · refine sat_ofExcept_bind ?_ (fun _ _ => trivial)
    intro digest hdigest
    have hd' : partitionDigestOf rt scope = digest := by simp [partitionDigestOf, hdigest]
    rw [hd'] at hG ⊢
    exact sat_write appendMemoryBody_sat hG hnil

theorem appendAnatomyTraceBody_sat {trace : AnatomyTrace} {at_ : Stamp} :
    (appendAnatomyTraceBody rt sup trace at_).Sat (engine d) index F G
      (BodyPost (engine d) index G (fun db ws r => AnatomyCommit rt sup trace at_ db ws r) Never)
      (fun _ _ => True) db [] [] := by
  unfold appendAnatomyTraceBody
  refine Body.sat_bind (sat_assertScope ?_ (fun _ => trivial) (fun _ _ _ => trivial))
  intro db₁ _ hws
  refine Body.sat_bind (sat_lockedHead ?_ (fun _ => trivial) (fun _ _ _ => trivial))
  intro db₂ head henv₂ hhead
  refine Body.sat_bind (Body.sat_ofExcept ?_ (fun _ _ => trivial))
  intro row hrow
  refine Body.sat_bind (sat_flush_one (extends_one rfl hhead (anatomyRow_sealed hrow))
    List.mem_cons_self ?_ (fun _ => trivial) (fun _ _ _ => trivial))
  intro db₃ henv₃
  refine .inr ?_
  intro db₄ henv₄ _
  have henv := henv₃.trans _ _ henv₄
  exact .mk (hws.grows ((env_grows henv₂).trans (env_grows henv)))
    (env_head henv List.mem_cons_self hhead) hrow

/-- **`append_anatomy_trace`** fails without effect or commits its row. -/
theorem appendAnatomyTrace_sat {trace : AnatomyTrace} {createdAt : Option Stamp}
    (hG : ∀ db ws r, AnatomyCommit rt sup trace (createdAt.getD (sup.now 0).stamp) db ws r →
      index.Fresh db ws → G db ws) (hnil : ∀ db, G db []) :
    Sat (engine d) index F G
      (Outcome (engine d) index G
        (fun db ws r => AnatomyCommit rt sup trace (createdAt.getD (sup.now 0).stamp) db ws r)
        Never AnyExn)
      (appendAnatomyTrace rt sup trace createdAt) db [] [] [] :=
  sat_write appendAnatomyTraceBody_sat hG hnil

/-! ## §4. Operational records. -/

theorem entityVersions_grows {kind id : PyStr} {o : OperationalRecord} {db db' : Db}
    (h : o ∈ entityVersions db scope kind id) (hg : Grows db db') :
    o ∈ entityVersions db' scope kind id := by
  obtain ⟨hm, hrest⟩ := mem_entityVersions.mp h
  exact mem_entityVersions.mpr ⟨hg.operational.subset hm, hrest⟩

theorem SeenVersion.grows {scope : Scope} {kind id : PyStr} {latest : Option OperationalRecord}
    {db db' : Db} (h : SeenVersion db scope kind id latest) (hg : Grows db db') :
    SeenVersion db' scope kind id latest :=
  fun o ho => entityVersions_grows (h o ho) hg

section Operational

variable {scope : Scope} {at_ : Stamp} {createdAt : Option Stamp}

theorem writeOperationalBody_sat {draft : OperationalRecordDraft} {insertOnly : Bool}
    {expectedVersion : Option Int} :
    (writeOperationalBody rt sup scope draft insertOnly expectedVersion at_).Sat (engine d) index
      F G (BodyPost (engine d) index G
        (fun db ws r =>
          OperationalCommit rt sup scope draft insertOnly expectedVersion at_ db ws r) Never)
      (fun _ _ => True) db [] [] := by
  unfold writeOperationalBody
  refine Body.sat_bind (sat_assertScope ?_ (fun _ => trivial) (fun _ _ _ => trivial))
  intro db₁ _ hws
  refine Body.sat_bind (Body.sat_selectForUpdate ?_ (fun _ _ _ _ => trivial))
  intro db₂ henv₂
  rw [Engine.view_nil]
  have hseen := seenVersion_latest db₂ scope draft.entityKind.value draft.entityId
  generalize latestOperational db₂ scope draft.entityKind.value draft.entityId = latest at hseen
  show Body.Sat _ _ _ _ _ _ (if _ then _ else _) _ _ _
  split
  · trivial
  next hinsert =>
  split
  · trivial
  next hexpected =>
  -- the versions may have moved on by the time the head is locked
  refine Body.sat_bind (sat_lockedHead ?_ (fun _ => trivial) (fun _ _ _ => trivial))
  intro db₃ head henv₃ hhead
  refine Body.sat_bind (Body.sat_ofExcept ?_ (fun _ _ => trivial))
  intro row hrow
  refine Body.sat_bind (sat_flush_one (extends_one rfl hhead (operationalRow_sealed hrow))
    List.mem_cons_self ?_ (fun _ => trivial) (fun _ _ _ => trivial))
  intro db₄ henv₄
  refine .inr ?_
  intro db₅ henv₅ _
  have henv := henv₄.trans _ _ henv₅
  have hg := (env_grows henv₃).trans (env_grows henv)
  refine .mk ((hws.grows (env_grows henv₂)).grows hg) (hseen.grows hg) ?_ ?_
    (env_head henv List.mem_cons_self hhead) hrow
  · intro hi
    cases latest with
    | none => rfl
    | some o => simp [hi] at hinsert
  · intro v hv
    simpa [hv] using hexpected

/-- **`_write_operational`** fails without effect or commits its row. -/
theorem writeOperational_sat {draft : OperationalRecordDraft} {insertOnly : Bool}
    {expectedVersion : Option Int}
    (hG : ∀ db ws r, OperationalCommit rt sup scope draft insertOnly expectedVersion
      (createdAt.getD (sup.now 0).stamp) db ws r → index.Fresh db ws → G db ws)
    (hnil : ∀ db, G db []) :
    Sat (engine d) index F G
      (Outcome (engine d) index G
        (fun db ws r => OperationalCommit rt sup scope draft insertOnly expectedVersion
          (createdAt.getD (sup.now 0).stamp) db ws r) Never AnyExn)
      (writeOperational rt sup scope draft insertOnly expectedVersion createdAt) db [] [] [] := by
  unfold writeOperational
  refine sat_write_handled ?_ (sat_write writeOperationalBody_sat hG hnil)
  intro e
  split
  · exact ⟨_, rfl⟩
  · exact ⟨_, rfl⟩

/-- The operational stream of a workspace, as records. -/
theorem stream_operational_eq (db : Db) (scope : Scope) :
    db.stream scope .operational
      = (db.operational.filter (fun o => o.inScope scope)).map .operational := by
  simp [Db.stream, Db.rows, List.filter_map, Function.comp_def]

theorem entityVersions_eq (db : Db) (scope : Scope) (kind id : PyStr) :
    entityVersions db scope kind id = (db.operational.filter (fun o => o.inScope scope)).filter
      (fun o => o.entityKind == kind && o.entityId == id) := by
  rw [entityVersions, List.filter_filter]
  refine List.filter_congr ?_
  intro o _
  rw [Bool.and_assoc, Bool.and_comm]

/-- Under the lock of its head, the versions of an entity stay as they are. -/
theorem env_latest {db db' : Db} {kind id : PyStr}
    (henv : Env (engine d) index G held db db') (hl : headLock scope .operational ∈ held) :
    latestOperational db' scope kind id = latestOperational db scope kind id := by
  have hs := env_stream henv hl
  rw [stream_operational_eq, stream_operational_eq,
    List.map_inj_right (fun _ _ h => Row.operational.inj h)] at hs
  rw [latestOperational, latestOperational, entityVersions_eq, entityVersions_eq, hs]

theorem BatchRows.env {db db' : Db} {i : Nat} {drafts : List OperationalRecordDraft}
    {head head' : StreamHeadRecord} {rows : List OperationalRecord}
    (h : BatchRows rt sup scope at_ db i drafts head rows head')
    (henv : Env (engine d) index G held db db') (hl : headLock scope .operational ∈ held) :
    BatchRows rt sup scope at_ db' i drafts head rows head' := by
  induction h with
  | nil => exact .nil
  | skip hun _ ih => exact .skip (by rw [env_latest henv hl]; exact hun) ih
  | write hrow _ ih => exact .write (by rw [env_latest henv hl]; exact hrow) ih

/-- The loop of a batch: what it adds to the rows that are already there. -/
theorem batchLoop_sat {drafts : List OperationalRecordDraft} {head : StreamHeadRecord}
    {written : List OperationalRecord}
    {R : StreamHeadRecord × List OperationalRecord → Db → List Write → List RowLock → Prop}
    (hl : headLock scope .operational ∈ held)
    (h : ∀ db' head' rows, Env (engine d) index G held db db' →
      BatchRows rt sup scope at_ db' written.length drafts head rows head' →
      R (head', written ++ rows) db' [] held) :
    (batchLoop rt sup scope at_ drafts head written).Sat (engine d) index F G R (fun _ _ => True)
      db [] held := by
  induction drafts generalizing db head written with
  | nil =>
    have hr := h db head [] .refl .nil
    simpa [batchLoop] using hr
  | cons draft drafts ih =>
    unfold batchLoop
    refine Body.sat_bind (Body.sat_select ?_ (fun _ _ _ _ => trivial))
    intro db₁ henv₁
    rw [Engine.view_nil]
    show Body.Sat _ _ _ _ _ _ (if _ then _ else _) _ _ _
    split
    · next hun =>
      refine ih ?_
      intro db₂ head' rows henv₂ hrows
      refine h db₂ head' rows (henv₁.trans _ _ henv₂) (.skip ?_ hrows)
      rw [env_latest henv₂ hl]
      exact hun
    · refine Body.sat_bind (Body.sat_ofExcept ?_ (fun _ _ => trivial))
      intro row hrow
      refine ih ?_
      intro db₂ head' rows henv₂ hrows
      rw [List.length_append, List.length_singleton] at hrows
      rw [List.append_assoc]
      refine h db₂ head' (row :: rows) (henv₁.trans _ _ henv₂) (.write ?_ hrows)
      rw [env_latest henv₂ hl]
      exact hrow

theorem upsertOperationalBatchBody_sat {drafts : List OperationalRecordDraft} :
    (upsertOperationalBatchBody rt sup scope drafts at_).Sat (engine d) index F G
      (BodyPost (engine d) index G
        (fun db ws rs => BatchCommit rt sup scope drafts at_ db ws rs)
        (fun rs _ => rs = [])) (fun _ _ => True) db [] [] := by
  unfold upsertOperationalBatchBody
  refine Body.sat_bind (sat_assertScope ?_ (fun _ => trivial) (fun _ _ _ => trivial))
  intro db₁ _ hws
  refine Body.sat_bind (sat_lockedHead ?_ (fun _ => trivial) (fun _ _ _ => trivial))
  intro db₂ head henv₂ hhead
  have hlock : headLock scope .operational ∈ [headLock scope .operational] := List.mem_cons_self
  refine Body.sat_bind (batchLoop_sat hlock ?_)
  intro db₃ head' rows henv₃ hrows
  rw [List.nil_append]
  show Body.Sat _ _ _ _ _ _ (if _ then _ else _) _ _ _
  split
  · exact .inl ⟨rfl, rfl⟩
  next hne =>
  obtain ⟨hchain, htip, hnames, _⟩ := hrows.spec
  have hhead₃ := env_head henv₃ hlock hhead
  have hmix : (rows.map Row.operational).map Row.mixin
      = rows.map OperationalRecord.toAppendOnlyMixin := by simp [Function.comp_def]
  have hext : Extends rt scope .operational head ⟨rows.map .operational, head'⟩ := by
    refine ⟨?_, ?_, ?_, ?_⟩
    · intro r hr
      obtain ⟨o, _, rfl⟩ := List.mem_map.mp hr
      rfl
    · rw [hmix]
      exact hchain
    · exact (hnames _ _ _).trans (names_of_head? hhead₃)
    · rw [hmix]
      exact htip
  refine Body.sat_bind (sat_flush_one hext hlock ?_ (fun _ => trivial) (fun _ _ _ => trivial))
  intro db₄ henv₄
  refine .inr ?_
  intro db₅ henv₅ _
  have henv := henv₄.trans _ _ henv₅
  refine .mk (hws.grows ((env_grows henv₂).trans ((env_grows henv₃).trans (env_grows henv))))
    (env_head henv hlock hhead₃) (hrows.env henv hlock) ?_
  simpa using hne

/-- **`upsert_operational_batch`** fails without effect, finds nothing to
write, or commits its rows. -/
theorem upsertOperationalBatch_sat {drafts : List OperationalRecordDraft}
    (hG : ∀ db ws rs, BatchCommit rt sup scope drafts (createdAt.getD (sup.now 0).stamp) db ws rs →
      index.Fresh db ws → G db ws) (hnil : ∀ db, G db []) :
    Sat (engine d) index F G
      (Outcome (engine d) index G
        (fun db ws rs => BatchCommit rt sup scope drafts (createdAt.getD (sup.now 0).stamp) db ws rs)
        (fun rs _ => rs = []) AnyExn)
      (upsertOperationalBatch rt sup scope drafts createdAt) db [] [] [] := by
  unfold upsertOperationalBatch
  split
  · exact sat_raise_outcome trivial
  split
  · exact ⟨rfl, rfl, fun _ _ => .replayed rfl (by simp)⟩
  · refine sat_tryCatch_outcome AnyExn (sat_transaction_outcome upsertOperationalBatchBody_sat
      (fun _ _ => trivial) hG hnil (fun _ _ _ _ h _ => h)) ?_ (fun _ _ _ _ h _ => h)
    intro e db' _
    split
    · exact sat_raise_outcome trivial
    · exact sat_raise_outcome trivial

end Operational

/-! ## §5. Tenants and workspaces. -/

/-- A flush of rows that need no lock. -/
theorem sat_flush_free {ws : List Write} {pending : List Write}
    {R : Unit → Db → List Write → List RowLock → Prop} (hfree : ∀ w ∈ ws, w.guard = none)
    (h : ∀ db', Env (engine d) index G held db db' → R () db' (pending ++ ws) held) :
    (Body.flush ws).Sat (engine d) index F G R (fun _ _ => True) db pending held := by
  refine Body.sat_flush ?_ h (fun _ _ => trivial) (fun _ _ _ _ => trivial)
  intro w hw l hl
  rw [index_guard, hfree w hw] at hl
  cases hl

theorem guard_addHead {heads : List StreamHeadRecord} :
    ∀ w ∈ heads.map Write.addHead, w.guard = none := by
  intro w hw
  obtain ⟨h, _, rfl⟩ := List.mem_map.mp hw
  rfl

/-- **`create_tenant`** fails without effect or commits its row. -/
theorem createTenant_sat {spec : TenantSpec}
    (hG : ∀ db, index.Fresh db [.addTenant (tenantRow spec (sup.now 0))] →
      G db [.addTenant (tenantRow spec (sup.now 0))]) (hnil : ∀ db, G db []) :
    Sat (engine d) index F G
      (Outcome (engine d) index G
        (fun _ ws _ => ws = [.addTenant (tenantRow spec (sup.now 0))]) Never AnyExn)
      (createTenant sup spec) db [] [] [] := by
  unfold createTenant
  refine sat_write (Body.sat_bind (sat_flush_free (by simp [Write.guard]) ?_)) ?_ hnil
  · intro db₁ _
    exact .inr (fun _ _ _ => rfl)
  · intro db' ws _ hws hf
    rw [hws] at hf ⊢
    exact hG db' hf

/-- **`create_workspace`** fails without effect or commits its rows. -/
theorem createWorkspace_sat {spec : WorkspaceSpec}
    (hG : ∀ db ws r, WorkspaceCommit sup spec db ws r → index.Fresh db ws → G db ws)
    (hnil : ∀ db, G db []) :
    Sat (engine d) index F G
      (Outcome (engine d) index G (fun db ws r => WorkspaceCommit sup spec db ws r) Never AnyExn)
      (createWorkspace sup spec) db [] [] [] := by
  unfold createWorkspace createWorkspaceBody
  refine sat_write (Body.sat_bind (Body.sat_select ?_ (fun _ _ _ _ => trivial))) hG hnil
  intro db₁ _
  show Body.Sat _ _ _ _ _ _ (if _ then _ else _) _ _ _
  split
  · trivial
  refine Body.sat_bind (sat_flush_free (by simp [Write.guard]) ?_)
  intro db₂ _
  refine Body.sat_bind (sat_flush_free guard_addHead ?_)
  intro db₃ _
  exact .inr (fun _ _ _ => .mk)

/-- What `provision_scope` may commit, in its first or its second attempt. -/
def Provisioned (rt : Runtime) (sup sup' : Supply) (tenantSpec : TenantSpec)
    (workspaceSpec : WorkspaceSpec) (db : Db) (ws : List Write) (r : ScopeProvisioning) : Prop :=
  ProvisionCommit rt sup tenantSpec workspaceSpec db ws r ∨
    ProvisionCommit rt sup' tenantSpec workspaceSpec db ws r

section Provisioning

variable {tenantSpec : TenantSpec} {workspaceSpec : WorkspaceSpec}

/-- What `_provision_scope_once` has written when it comes to the workspace. -/
def TenantPart (sup : Supply) (tenantSpec : TenantSpec) (pending : List Write) : Prop :=
  pending = [] ∨ pending = [.addTenant (tenantRow tenantSpec (sup.now 0))]

theorem provisionTenant_sat :
    (provisionTenant sup tenantSpec).Sat (engine d) index F G
      (fun _ _ pending _ => TenantPart sup tenantSpec pending) (fun _ _ => True) db [] held := by
  unfold provisionTenant
  refine Body.sat_bind (Body.sat_selectForUpdate ?_ (fun _ _ _ _ => trivial))
  intro db₁ _
  rw [Engine.view_nil]
  cases findTenant db₁ tenantSpec.id with
  | none =>
    refine Body.sat_bind (sat_flush_free (by simp [Write.guard]) ?_)
    intro db₂ _
    exact .inr rfl
  | some tenant =>
    show Body.Sat _ _ _ _ _ _ (if _ then _ else _) _ _ _
    split
    · trivial
    · exact .inl rfl

/-- The head that a workspace's own transaction finds is the one it wrote. -/
theorem head_of_new_workspace (receipt : ReceiptRecord) (head' : StreamHeadRecord)
    {pre : List Write} {db' : Db} {head : StreamHeadRecord}
    (hpre : TenantPart sup tenantSpec pre)
    (henv : Env (engine d) index G held db db')
    (hf : index.Fresh db' (pre ++ provisionWrites sup tenantSpec workspaceSpec receipt head'))
    (hh : headOf ((engine d).view db (pre ++
      (.addWorkspace (workspaceRow tenantSpec.id workspaceSpec (sup.now 1)) ::
        (initialHeads ⟨tenantSpec.id, workspaceSpec.id⟩ (fun k => sup.now (2 + k.ordinal))).map
          .addHead))) ⟨tenantSpec.id, workspaceSpec.id⟩ .receipts = some head) :
    head = newHead sup tenantSpec workspaceSpec := by
  have hkey : Key.head tenantSpec.id.text workspaceSpec.id.text StreamKind.receipts.value
      ∉ db.keys := by
    intro hk
    refine hf.unused _ ?_ (env_keys henv hk)
    refine List.mem_flatMap.mpr ⟨.addHead (newHead sup tenantSpec workspaceSpec), ?_, ?_⟩
    · refine List.mem_append_right _ (List.mem_append_left _ (List.mem_cons_of_mem _
        (List.mem_map.mpr ⟨_, ?_, rfl⟩)))
      exact List.mem_map.mpr ⟨.receipts, mem_streamKinds _, rfl⟩
    · simp [Write.keys, StreamHeadRecord.keys, newHead]
  have hnone := head?_none hkey
  have hheads : ((engine d).view db (pre ++
      (.addWorkspace (workspaceRow tenantSpec.id workspaceSpec (sup.now 1)) ::
        (initialHeads ⟨tenantSpec.id, workspaceSpec.id⟩ (fun k => sup.now (2 + k.ordinal))).map
          .addHead))).heads = db.heads ++
      initialHeads ⟨tenantSpec.id, workspaceSpec.id⟩ (fun k => sup.now (2 + k.ordinal)) := by
    rw [Engine.view_append]
    show (List.foldl Db.write _ (_ :: _)).heads = _
    rw [List.foldl_cons, heads_foldl_addHead]
    rcases hpre with rfl | rfl <;> rfl
  rw [head?_eq_find] at hnone
  rw [headOf, head?_eq_find, hheads, List.find?_append, hnone, Option.none_or] at hh
  simp [initialHeads, streamKinds, StreamHeadRecord.names] at hh
  exact hh.symm

theorem provisionWorkspace_sat {pre : List Write} {tenant : TenantRecord}
    (hpre : TenantPart sup tenantSpec pre) :
    (provisionWorkspace rt d sup tenant tenantSpec workspaceSpec).Sat (engine d) index F G
      (fun _ db pending held => pending = pre ∨
        ∀ db', Env (engine d) index G held db db' → index.Fresh db' pending →
          ∃ receipt, provisioningRow rt (sup.uuid 0) ⟨tenantSpec.id, workspaceSpec.id⟩ tenantSpec
              workspaceSpec 1 none (sup.now 7).stamp = .ok receipt ∧
            pending = pre ++ provisionWrites sup tenantSpec workspaceSpec receipt
              (newHead sup tenantSpec workspaceSpec)) (fun _ _ => True) db pre held := by
  unfold provisionWorkspace
  refine Body.sat_bind (Body.sat_selectForUpdate ?_ (fun _ _ _ _ => trivial))
  intro db₁ _
  cases findWorkspace ((engine d).view db₁ pre) workspaceSpec.id with
  | none =>
    refine Body.sat_bind (sat_flush_free (by simp [Write.guard]) ?_)
    intro db₂ _
    refine Body.sat_bind (sat_flush_free guard_addHead ?_)
    intro db₃ _
    refine Body.sat_bind ?_
    unfold appendProvisioningReceipt
    refine Body.sat_bind (sat_lockedHead_view ?_ (fun _ => trivial) (fun _ _ _ => trivial))
    intro db₄ head _ hhead
    refine Body.sat_bind (Body.sat_ofExcept ?_ (fun _ _ => trivial))
    intro receipt hrow
    have hext := extends_one (Row.stream_receipt receipt) hhead (provisioningRow_sealed hrow)
    refine Body.sat_bind (sat_flush_append rt ⟨tenantSpec.id, workspaceSpec.id⟩ [(.receipts, _)]
      (by simpa using ⟨head, hext⟩) (by simp) ?_ (fun _ => trivial) (fun _ _ _ => trivial))
    intro db₅ henv₅
    refine .inr ?_
    intro db₆ henv₆ hfresh
    have hassoc : pre ++ [Write.addWorkspace (workspaceRow tenantSpec.id workspaceSpec (sup.now 1))]
        ++ (initialHeads ⟨tenantSpec.id, workspaceSpec.id⟩
          (fun k => sup.now (2 + k.ordinal))).map .addHead
        ++ appendWrites [⟨[.receipt receipt],
          advanceHead head receipt.sequence receipt.recordHash (sup.now 7).stamp⟩]
        = pre ++ provisionWrites sup tenantSpec workspaceSpec receipt head := by
      simp [provisionWrites]
    have hhead' : head = newHead sup tenantSpec workspaceSpec := by
      refine head_of_new_workspace receipt head hpre
        (henv₅.trans _ _ henv₆) ?_ (by simpa using hhead)
      rw [← hassoc]
      exact hfresh
    subst hhead'
    exact ⟨receipt, hrow, hassoc⟩
  | some workspace =>
    refine Body.sat_bind (Body.sat_select ?_ (fun _ _ _ _ => trivial))
    intro db₂ _
    refine Body.sat_bind (Body.sat_ofExcept ?_ (fun _ _ => trivial))
    intro _ _
    refine Body.sat_bind (Body.sat_select ?_ (fun _ _ _ _ => trivial))
    intro db₃ _
    refine Body.sat_bind (Body.sat_ofExcept ?_ (fun _ _ => trivial))
    intro _ _
    exact .inl rfl

theorem provisionScopeOnce_sat
    (hG : ∀ db ws r, ProvisionCommit rt sup tenantSpec workspaceSpec db ws r →
      index.Fresh db ws → G db ws) (hnil : ∀ db, G db []) :
    Sat (engine d) index F G
      (Outcome (engine d) index G
        (fun db ws r => ProvisionCommit rt sup tenantSpec workspaceSpec db ws r)
        (fun _ _ => True) AnyExn)
      (provisionScopeOnce rt d sup tenantSpec workspaceSpec) db [] [] [] := by
  unfold provisionScopeOnce
  split
  · exact sat_raise_outcome trivial
  refine sat_transaction_outcome (Body.sat_bind (provisionTenant_sat.imp ?_ (fun _ _ h => h)))
    (fun _ _ => trivial) hG hnil (fun _ _ _ _ _ _ => trivial)
  intro tenant db₁ pre held₁ hpre
  refine Body.sat_bind ((provisionWorkspace_sat hpre).imp ?_ (fun _ _ h => h))
  intro created db₂ pending held₂ hpost
  rcases hpost with rfl | hpost
  · rcases hpre with rfl | rfl
    · exact .inl ⟨rfl, trivial⟩
    · exact .inr (fun _ _ _ => .tenant)
  · refine .inr ?_
    intro db₃ henv₃ hfresh
    obtain ⟨receipt, hrow, rfl⟩ := hpost db₃ henv₃ hfresh
    rcases hpre with rfl | rfl
    · exact .workspace hrow
    · exact .both hrow

theorem readProvisionedScope_sat {C : Db → List Write → ScopeProvisioning → Prop} :
    Sat (engine d) index F G (Outcome (engine d) index G C (fun _ _ => True) AnyExn)
      (readProvisionedScope rt d tenantSpec workspaceSpec) db [] [] [] := by
  unfold readProvisionedScope
  refine sat_readSession_outcome (Body.sat_bind (Body.sat_select ?_ (fun _ _ _ _ => trivial)))
    (fun _ _ _ _ _ _ => trivial)
  intro db₁ _
  refine Body.sat_bind (Body.sat_select ?_ (fun _ _ _ _ => trivial))
  intro db₂ _
  refine Body.sat_bind (Body.sat_select ?_ (fun _ _ _ _ => trivial))
  intro db₃ _
  refine Body.sat_bind (Body.sat_ofExcept ?_ (fun _ _ => trivial))
  intro _ _
  refine Body.sat_bind (Body.sat_select ?_ (fun _ _ _ _ => trivial))
  intro db₄ _
  exact Body.sat_bind (Body.sat_ofExcept (fun _ _ => trivial) (fun _ _ => trivial))

/-- Any lookup keeps a contract that promises nothing of its answer. -/
theorem retryableMissingWorkspace_sat
    {Q : Except Exn Bool → List (Db × List Write) → Db → Prop} (hQ : ∀ r db, Q r [] db) :
    Sat (engine d) index F G Q (retryableMissingWorkspace tenantSpec workspaceSpec) db [] [] [] := by
  unfold retryableMissingWorkspace
  refine sat_readSession (Body.sat_bind (Body.sat_select ?_ (fun _ _ _ _ _ _ => hQ _ _)))
  intro db₁ _
  show Body.Sat _ _ _ _ _ _ (if _ then _ else _) _ _ _
  split
  · exact fun _ _ => hQ _ _
  refine Body.sat_bind (Body.sat_select ?_ (fun _ _ _ _ _ _ => hQ _ _))
  intro db₂ _
  show Body.Sat _ _ _ _ _ _ (if _ then _ else _) _ _ _
  split
  · exact fun _ _ => hQ _ _
  refine Body.sat_bind (Body.sat_select ?_ (fun _ _ _ _ _ _ => hQ _ _))
  intro db₃ _
  exact fun _ _ => hQ _ _

theorem provisionAttempt_sat {C : Db → List Write → ScopeProvisioning → Prop}
    {onConflict : Exn → StoreProg ScopeProvisioning}
    (hC : ∀ db ws r, ProvisionCommit rt sup tenantSpec workspaceSpec db ws r → C db ws r)
    (hG : ∀ db ws r, C db ws r → index.Fresh db ws → G db ws) (hnil : ∀ db, G db [])
    (hconflict : ∀ e db, Sat (engine d) index F G
      (Outcome (engine d) index G C (fun _ _ => True) AnyExn) (onConflict e) db [] [] []) :
    Sat (engine d) index F G (Outcome (engine d) index G C (fun _ _ => True) AnyExn)
      (provisionAttempt rt d sup tenantSpec workspaceSpec onConflict) db [] [] [] := by
  unfold provisionAttempt
  refine sat_tryCatch_outcome AnyExn ((provisionScopeOnce_sat
    (fun db ws r h => hG db ws r (hC db ws r h)) hnil).imp
    (fun _ _ _ h => h.imp hC (fun _ _ h => h))) ?_ (fun _ _ _ _ _ _ => trivial)
  intro e db' _
  split
  · refine sat_tryCatch_outcome AnyExn readProvisionedScope_sat ?_ (fun _ _ _ _ _ _ => trivial)
    intro e' db'' _
    split
    · exact hconflict e' db''
    · exact sat_raise_outcome trivial
  · exact sat_raise_outcome trivial

/-- **`provision_scope`** fails without effect, finds everything there, or
commits what is missing. -/
theorem provisionScope_sat {sup' : Supply}
    (hG : ∀ db ws r, Provisioned rt sup sup' tenantSpec workspaceSpec db ws r →
      index.Fresh db ws → G db ws) (hnil : ∀ db, G db []) :
    Sat (engine d) index F G
      (Outcome (engine d) index G (Provisioned rt sup sup' tenantSpec workspaceSpec)
        (fun _ _ => True) AnyExn)
      (provisionScope rt d sup sup' tenantSpec workspaceSpec) db [] [] [] := by
  unfold provisionScope
  refine provisionAttempt_sat (fun _ _ _ h => .inl h) hG hnil ?_
  intro e db'
  refine sat_bind (retryableMissingWorkspace_sat ?_)
  intro r db''
  cases r with
  | error e' => exact sat_raise_outcome trivial
  | ok retry =>
    cases retry with
    | true =>
      refine provisionAttempt_sat (fun _ _ _ h => .inr h) hG hnil ?_
      intro e' db₃
      exact sat_raise_outcome trivial
    | false => exact sat_raise_outcome trivial

end Provisioning

end Contracts

end Lyte
