/-
  Lyte.Lib.Program — transactional programs over a row store.

  A call of a database client is a TREE of statements: each node issues one
  statement, and its continuation receives what the statement could see (the
  committed rows plus the rows this transaction has written itself).  The same
  tree has two meanings:

    * `Prog.exec`, here: the call runs alone, while any of its statements may
      be made to raise by a fault plan;
    * `Step`, in `Lib/Interleaving.lean`: many calls run at once, one statement
      of one call at a time.

  A transaction body (`Body`) only selects, locks and inserts; `transaction`
  closes it by COMMIT, or by ROLLBACK where it raises.  The two results that
  the rest of the development uses about a transaction are

      exec_transaction           whatever the faults, a transaction either
                                 raises and leaves the committed rows alone, or
                                 returns what `Body.eval` computes and commits
                                 exactly the rows `Body.eval` wrote;
      exec_transaction_noFaults  with no faults it does what `Body.eval` says.

  Nothing here depends on what the rows are.
-/

namespace Transact

/-! ## §1. Engines. -/

/-- **What a database engine fixes**: how one written row becomes visible, what
a row looks like when it is read back after its commit, and which rows the
engine's constraints refuse in a given state. -/
structure Engine (σ W E : Type) where
  write : σ → W → σ
  stored : W → W
  rejects : σ → W → Bool
  integrity : E

namespace Engine

variable {σ W E : Type} (eng : Engine σ W E)

/-- The rows a transaction sees: the committed ones, then its own. -/
def view (db : σ) (pending : List W) : σ := pending.foldl eng.write db

/-- The committed rows after a transaction that wrote `pending` commits. -/
def commit (db : σ) (pending : List W) : σ := (pending.map eng.stored).foldl eng.write db

@[simp] theorem view_nil (db : σ) : eng.view db [] = db := rfl

@[simp] theorem commit_nil (db : σ) : eng.commit db [] = db := rfl

theorem view_append (db : σ) (p q : List W) :
    eng.view db (p ++ q) = eng.view (eng.view db p) q := by
  simp [view]

theorem commit_append (db : σ) (p q : List W) :
    eng.commit db (p ++ q) = eng.commit (eng.commit db p) q := by
  simp [commit]

@[simp] theorem commit_cons (db : σ) (w : W) (p : List W) :
    eng.commit db (w :: p) = eng.commit (eng.write db (eng.stored w)) p := rfl

end Engine

/-! ## §2. Programs. -/

/-- The statements of a transaction: a SELECT, a SELECT … FOR UPDATE that locks
the row it finds, and the INSERT or UPDATE of one row. -/
inductive Stmt (σ W L : Type) where
  | select
  | lock (row : σ → Option L)
  | insert (w : W)

/-- The body of a transaction. -/
inductive Body (σ W L E α : Type) where
  | ret (a : α)
  | raise (e : E)
  | stmt (s : Stmt σ W L) (k : σ → Body σ W L E α)

/-- A whole call: statements with the exception handlers around them, and the
transaction boundaries. -/
inductive Prog (σ W L E α : Type) where
  | ret (a : α)
  | raise (e : E)
  | stmt (s : Stmt σ W L) (k : σ → Prog σ W L E α) (onError : E → Prog σ W L E α)
  | commit (k : Prog σ W L E α) (onError : E → Prog σ W L E α)
  | rollback (k : Prog σ W L E α)

section Combinators

variable {σ W L E α β : Type}

namespace Body

def bind : Body σ W L E α → (α → Body σ W L E β) → Body σ W L E β
  | .ret a, f => f a
  | .raise e, _ => .raise e
  | .stmt s k, f => .stmt s (fun v => (k v).bind f)

instance : Monad (Body σ W L E) where
  pure := .ret
  bind := bind

/-- `session.scalar(select(...))`: `q` is the query. -/
def select (q : σ → α) : Body σ W L E α := .stmt .select (fun v => .ret (q v))

/-- `session.scalar(select(...).with_for_update())`: `row` names the row that the
query `q` finds. -/
def selectForUpdate (row : σ → Option L) (q : σ → α) : Body σ W L E α :=
  .stmt (.lock row) (fun v => .ret (q v))

/-- One INSERT or UPDATE of a flush. -/
def insert (w : W) : Body σ W L E Unit := .stmt (.insert w) (fun _ => .ret ())

/-- `session.flush()` of the rows added so far. -/
def flush : List W → Body σ W L E Unit
  | [] => .ret ()
  | w :: ws => .stmt (.insert w) (fun _ => flush ws)

/-- A computation of the client between two statements. -/
def ofExcept : Except E α → Body σ W L E α
  | .ok a => .ret a
  | .error e => .raise e

@[simp] theorem pure_eq (a : α) : (pure a : Body σ W L E α) = .ret a := rfl
@[simp] theorem bind_eq (b : Body σ W L E α) (f : α → Body σ W L E β) :
    (b >>= f) = b.bind f := rfl
@[simp] theorem ret_bind (a : α) (f : α → Body σ W L E β) :
    (Body.ret a : Body σ W L E α).bind f = f a := rfl
@[simp] theorem raise_bind (e : E) (f : α → Body σ W L E β) :
    (Body.raise e : Body σ W L E α).bind f = .raise e := rfl
@[simp] theorem stmt_bind (s : Stmt σ W L) (k : σ → Body σ W L E α) (f : α → Body σ W L E β) :
    (Body.stmt s k).bind f = .stmt s (fun v => (k v).bind f) := rfl

end Body

namespace Prog

def bind : Prog σ W L E α → (α → Prog σ W L E β) → Prog σ W L E β
  | .ret a, f => f a
  | .raise e, _ => .raise e
  | .stmt s k h, f => .stmt s (fun v => (k v).bind f) (fun e => (h e).bind f)
  | .commit k h, f => .commit (k.bind f) (fun e => (h e).bind f)
  | .rollback k, f => .rollback (k.bind f)

instance : Monad (Prog σ W L E) where
  pure := .ret
  bind := bind

/-- `try: p except ...`: the handler decides by itself which exceptions it
passes on. -/
def tryCatch : Prog σ W L E α → (E → Prog σ W L E α) → Prog σ W L E α
  | .ret a, _ => .ret a
  | .raise e, h' => h' e
  | .stmt s k h, h' => .stmt s (fun v => (k v).tryCatch h') (fun e => (h e).tryCatch h')
  | .commit k h, h' => .commit (k.tryCatch h') (fun e => (h e).tryCatch h')
  | .rollback k, h' => .rollback (k.tryCatch h')

def ofExcept : Except E α → Prog σ W L E α
  | .ok a => .ret a
  | .error e => .raise e

@[simp] theorem pure_eq (a : α) : (pure a : Prog σ W L E α) = .ret a := rfl
@[simp] theorem bind_eq (p : Prog σ W L E α) (f : α → Prog σ W L E β) :
    (p >>= f) = p.bind f := rfl
@[simp] theorem ret_bind (a : α) (f : α → Prog σ W L E β) :
    (Prog.ret a : Prog σ W L E α).bind f = f a := rfl
@[simp] theorem raise_bind (e : E) (f : α → Prog σ W L E β) :
    (Prog.raise e : Prog σ W L E α).bind f = .raise e := rfl

end Prog

/-- `with session.begin(): body` — COMMIT at the end, ROLLBACK where it raises. -/
def transaction : Body σ W L E α → Prog σ W L E α
  | .ret a => .commit (.ret a) .raise
  | .raise e => .rollback (.raise e)
  | .stmt s k => .stmt s (fun v => transaction (k v)) .raise

/-- `with database.session() as session: body` without `begin()`: nothing is
ever committed. -/
def readSession : Body σ W L E α → Prog σ W L E α
  | .ret a => .rollback (.ret a)
  | .raise e => .rollback (.raise e)
  | .stmt s k => .stmt s (fun v => readSession (k v)) .raise

end Combinators

/-! ## §3. Running alone. -/

section Exec

variable {σ W L E α β : Type} (eng : Engine σ W E)

/-- The rows a transaction body returns with and has written, when no statement
is made to raise from outside. -/
def Body.eval : Body σ W L E α → σ → List W → Except E (α × List W)
  | .ret a, _, pending => .ok (a, pending)
  | .raise e, _, _ => .error e
  | .stmt .select k, db, pending => (k (eng.view db pending)).eval db pending
  | .stmt (.lock _) k, db, pending => (k (eng.view db pending)).eval db pending
  | .stmt (.insert w) k, db, pending =>
      if eng.rejects (eng.view db pending) w then .error eng.integrity
      else (k (eng.view db pending)).eval db (pending ++ [w])

/-- A client session: the committed rows, the rows of the open transaction, and
the fault plan — the exceptions the coming statements are made to raise. -/
structure Session (σ W E : Type) where
  db : σ
  pending : List W := []
  faults : List (Option E) := []

/-- A session with no open transaction. -/
def Session.idle (db : σ) (faults : List (Option E)) : Session σ W E := ⟨db, [], faults⟩

/-- Issue one statement.  Where it raises, from the fault plan or because the
engine refuses the row, the open transaction is aborted. -/
def Session.issue : Stmt σ W L → Session σ W E → Except (E × Session σ W E) (Session σ W E)
  | st, ⟨db, pending, faults⟩ =>
    match faults with
    | some e :: fs => .error (e, .idle db fs)
    | fs =>
      match st with
      | .insert w =>
          if eng.rejects (eng.view db pending) w then .error (eng.integrity, .idle db fs.tail)
          else .ok ⟨db, pending ++ [w], fs.tail⟩
      | _ => .ok ⟨db, pending, fs.tail⟩

/-- COMMIT either takes effect or raises with the transaction aborted. -/
def Session.close : Session σ W E → Except (E × Session σ W E) (Session σ W E)
  | ⟨db, pending, faults⟩ =>
    match faults with
    | some e :: fs => .error (e, .idle db fs)
    | fs => .ok (.idle (eng.commit db pending) fs.tail)

/-- Run a call alone. -/
def Prog.exec : Prog σ W L E α → Session σ W E → Except E α × Session σ W E
  | .ret a, s => (.ok a, s)
  | .raise e, s => (.error e, s)
  | .stmt st k h, s =>
      match s.issue eng st with
      | .error (e, s') => (h e).exec s'
      | .ok s' => (k (eng.view s.db s.pending)).exec s'
  | .commit k h, s =>
      match s.close eng with
      | .error (e, s') => (h e).exec s'
      | .ok s' => k.exec s'
  | .rollback k, s => k.exec (.idle s.db s.faults)

theorem exec_bind (p : Prog σ W L E α) (f : α → Prog σ W L E β) (s : Session σ W E) :
    (p.bind f).exec eng s
      = match p.exec eng s with
        | (.ok a, s') => (f a).exec eng s'
        | (.error e, s') => (.error e, s') := by
  induction p generalizing s with
  | ret a => rfl
  | raise e => rfl
  | stmt st k h ihk ihh =>
    simp only [Prog.bind, Prog.exec]
    cases s.issue eng st with
    | error es => exact ihh _ _
    | ok s' => exact ihk _ _
  | commit k h ihk ihh =>
    simp only [Prog.bind, Prog.exec]
    cases s.close eng with
    | error es => exact ihh _ _
    | ok s' => exact ihk _
  | rollback k ihk => exact ihk _

theorem exec_tryCatch (p : Prog σ W L E α) (h' : E → Prog σ W L E α) (s : Session σ W E) :
    (p.tryCatch h').exec eng s
      = match p.exec eng s with
        | (.ok a, s') => (.ok a, s')
        | (.error e, s') => (h' e).exec eng s' := by
  induction p generalizing s with
  | ret a => rfl
  | raise e => rfl
  | stmt st k h ihk ihh =>
    simp only [Prog.tryCatch, Prog.exec]
    cases s.issue eng st with
    | error es => exact ihh _ _
    | ok s' => exact ihk _ _
  | commit k h ihk ihh =>
    simp only [Prog.tryCatch, Prog.exec]
    cases s.close eng with
    | error es => exact ihh _ _
    | ok s' => exact ihk _
  | rollback k ihk => exact ihk _

/-! ## §4. What a transaction can do. -/

/-- The two ends of a transaction that started on the committed rows `db`. -/
def Settles (body : Body σ W L E α) (db : σ) (pending : List W)
    (r : Except E α × Session σ W E) : Prop :=
  (∃ e fs, r = (.error e, .idle db fs)) ∨
  (∃ a rows fs, body.eval eng db pending = .ok (a, rows) ∧
    r = (.ok a, .idle (eng.commit db rows) fs))

/-- The statements of a body: what issuing one does to a session, against what
`Body.eval` makes of it. -/
theorem issue_cases (st : Stmt σ W L) (k : σ → Body σ W L E α) (db : σ) (pending : List W)
    (fs : List (Option E)) :
    (∃ e fs', Session.issue eng st ⟨db, pending, fs⟩ = .error (e, .idle db fs')) ∨
    (∃ rows fs', Session.issue eng st ⟨db, pending, fs⟩ = .ok ⟨db, rows, fs'⟩ ∧
      (Body.stmt st k).eval eng db pending = (k (eng.view db pending)).eval eng db rows) := by
  simp only [Session.issue]
  split
  · exact .inl ⟨_, _, rfl⟩
  · cases st with
    | select => exact .inr ⟨pending, _, rfl, rfl⟩
    | lock l => exact .inr ⟨pending, _, rfl, rfl⟩
    | insert w =>
      by_cases hr : eng.rejects (eng.view db pending) w = true
      · exact .inl ⟨eng.integrity, fs.tail, by simp [hr]⟩
      · exact .inr ⟨pending ++ [w], fs.tail, by simp [hr], by simp [Body.eval, hr]⟩

/-- With an empty fault plan a statement only raises where the engine refuses
the row. -/
theorem issue_noFaults (st : Stmt σ W L) (k : σ → Body σ W L E α) (db : σ) (pending : List W) :
    (Session.issue eng st ⟨db, pending, []⟩ = .error (eng.integrity, .idle db []) ∧
      (Body.stmt st k).eval eng db pending = .error eng.integrity) ∨
    (∃ rows, Session.issue eng st ⟨db, pending, []⟩ = .ok ⟨db, rows, []⟩ ∧
      (Body.stmt st k).eval eng db pending = (k (eng.view db pending)).eval eng db rows) := by
  cases st with
  | select => exact .inr ⟨pending, rfl, rfl⟩
  | lock l => exact .inr ⟨pending, rfl, rfl⟩
  | insert w =>
    by_cases hr : eng.rejects (eng.view db pending) w = true
    · exact .inl ⟨by simp [Session.issue, hr], by simp [Body.eval, hr]⟩
    · exact .inr ⟨pending ++ [w], by simp [Session.issue, hr], by simp [Body.eval, hr]⟩

theorem exec_transaction_aux (body : Body σ W L E α) (db : σ) (pending : List W)
    (fs : List (Option E)) :
    Settles eng body db pending ((transaction body).exec eng ⟨db, pending, fs⟩) := by
  induction body generalizing pending fs with
  | ret a =>
    simp only [transaction, Prog.exec, Session.close]
    split
    · next h =>
      split at h
      · cases h; exact .inl ⟨_, _, rfl⟩
      · cases h
    · next h =>
      split at h
      · cases h
      · cases h; exact .inr ⟨a, pending, _, rfl, rfl⟩
  | raise e => exact .inl ⟨e, fs, rfl⟩
  | stmt st k ih =>
    simp only [transaction, Prog.exec]
    rcases issue_cases eng st k db pending fs with ⟨e, fs', h⟩ | ⟨rows, fs', h, hev⟩
    · rw [h]
      exact .inl ⟨e, fs', rfl⟩
    · rw [h]
      simpa only [Settles, hev] using ih (eng.view db pending) rows fs'

/-- **A transaction raises without effect, or commits what its body wrote.** -/
theorem exec_transaction (body : Body σ W L E α) (db : σ) (fs : List (Option E)) :
    Settles eng body db [] ((transaction body).exec eng (.idle db fs)) :=
  exec_transaction_aux eng body db [] fs

theorem exec_transaction_noFaults_aux (body : Body σ W L E α) (db : σ) (pending : List W) :
    (transaction body).exec eng ⟨db, pending, []⟩
      = match body.eval eng db pending with
        | .ok (a, rows) => (.ok a, .idle (eng.commit db rows) [])
        | .error e => (.error e, .idle db []) := by
  induction body generalizing pending with
  | ret a => rfl
  | raise e => rfl
  | stmt st k ih =>
    simp only [transaction, Prog.exec]
    rcases issue_noFaults eng st k db pending with ⟨h, hev⟩ | ⟨rows, h, hev⟩
    · rw [h, hev]
    · rw [h, hev]
      exact ih _ rows

/-- **Without faults a transaction does what its body's evaluation says.** -/
theorem exec_transaction_noFaults (body : Body σ W L E α) (db : σ) :
    (transaction body).exec eng (.idle db [])
      = match body.eval eng db [] with
        | .ok (a, rows) => (.ok a, .idle (eng.commit db rows) [])
        | .error e => (.error e, .idle db []) :=
  exec_transaction_noFaults_aux eng body db []

theorem exec_readSession_aux (body : Body σ W L E α) (db : σ) (pending : List W)
    (fs : List (Option E)) :
    (∃ e fs', (readSession body).exec eng ⟨db, pending, fs⟩ = (.error e, .idle db fs')) ∨
    (∃ a rows fs', body.eval eng db pending = .ok (a, rows) ∧
      (readSession body).exec eng ⟨db, pending, fs⟩ = (.ok a, .idle db fs')) := by
  induction body generalizing pending fs with
  | ret a => exact .inr ⟨a, pending, fs, rfl, rfl⟩
  | raise e => exact .inl ⟨e, fs, rfl⟩
  | stmt st k ih =>
    simp only [readSession, Prog.exec]
    rcases issue_cases eng st k db pending fs with ⟨e, fs', h⟩ | ⟨rows, fs', h, hev⟩
    · rw [h]
      exact .inl ⟨e, fs', rfl⟩
    · rw [h]
      simpa only [hev] using ih (eng.view db pending) rows fs'

/-- A session that is never committed leaves the committed rows alone, and what
it returns is what its body evaluates to. -/
theorem exec_readSession (body : Body σ W L E α) (db : σ) (fs : List (Option E)) :
    (∃ e fs', (readSession body).exec eng (.idle db fs) = (.error e, .idle db fs')) ∨
    (∃ a rows fs', body.eval eng db [] = .ok (a, rows) ∧
      (readSession body).exec eng (.idle db fs) = (.ok a, .idle db fs')) :=
  exec_readSession_aux eng body db [] fs

theorem exec_readSession_noFaults_aux (body : Body σ W L E α) (db : σ) (pending : List W) :
    (readSession body).exec eng ⟨db, pending, []⟩
      = match body.eval eng db pending with
        | .ok (a, _) => (.ok a, .idle db [])
        | .error e => (.error e, .idle db []) := by
  induction body generalizing pending with
  | ret a => rfl
  | raise e => rfl
  | stmt st k ih =>
    simp only [readSession, Prog.exec]
    rcases issue_noFaults eng st k db pending with ⟨h, hev⟩ | ⟨rows, h, hev⟩
    · rw [h, hev]
    · rw [h, hev]
      exact ih _ rows

theorem exec_readSession_noFaults (body : Body σ W L E α) (db : σ) :
    (readSession body).exec eng (.idle db [])
      = match body.eval eng db [] with
        | .ok (a, _) => (.ok a, .idle db [])
        | .error e => (.error e, .idle db []) :=
  exec_readSession_noFaults_aux eng body db []

/-! ## §5. Evaluating bodies statement by statement. -/

@[simp] theorem eval_ret (a : α) (db : σ) (pending : List W) :
    (Body.ret a : Body σ W L E α).eval eng db pending = .ok (a, pending) := rfl

@[simp] theorem eval_raise (e : E) (db : σ) (pending : List W) :
    (Body.raise e : Body σ W L E α).eval eng db pending = .error e := rfl

theorem eval_bind (b : Body σ W L E α) (f : α → Body σ W L E β) (db : σ) (pending : List W) :
    (b.bind f).eval eng db pending
      = match b.eval eng db pending with
        | .ok (a, rows) => (f a).eval eng db rows
        | .error e => .error e := by
  induction b generalizing pending with
  | ret a => rfl
  | raise e => rfl
  | stmt st k ih =>
    cases st with
    | select => simpa [Body.eval] using ih _ pending
    | lock l => simpa [Body.eval] using ih _ pending
    | insert w =>
      simp only [Body.stmt_bind, Body.eval]
      split
      · rfl
      · exact ih _ _

@[simp] theorem eval_select_bind (q : σ → α) (f : α → Body σ W L E β) (db : σ)
    (pending : List W) :
    ((Body.select q).bind f).eval eng db pending
      = (f (q (eng.view db pending))).eval eng db pending := rfl

@[simp] theorem eval_selectForUpdate_bind (row : σ → Option L) (q : σ → α) (f : α → Body σ W L E β) (db : σ)
    (pending : List W) :
    ((Body.selectForUpdate row q).bind f).eval eng db pending
      = (f (q (eng.view db pending))).eval eng db pending := rfl

/-- **A bind that evaluates to a result passed through an intermediate one.** -/
theorem eval_bind_ok {b : Body σ W L E α} {f : α → Body σ W L E β} {db : σ}
    {pending : List W} {r : β × List W} (h : (b.bind f).eval eng db pending = .ok r) :
    ∃ a rows, b.eval eng db pending = .ok (a, rows) ∧ (f a).eval eng db rows = .ok r := by
  rw [eval_bind] at h
  split at h
  · next a rows hb => exact ⟨a, rows, hb, h⟩
  · cases h

theorem eval_ofExcept_ok {x : Except E α} {db : σ} {pending rows : List W} {a : α}
    (h : (Body.ofExcept x : Body σ W L E α).eval eng db pending = .ok (a, rows)) :
    x = .ok a ∧ rows = pending := by
  cases x with
  | error e => cases h
  | ok b =>
    simp only [Body.ofExcept, eval_ret, Except.ok.injEq, Prod.mk.injEq] at h
    exact ⟨by rw [h.1], h.2.symm⟩

/-- A flush that succeeds adds its rows, each accepted in the state left by the
ones before it. -/
theorem eval_flush_ok {ws : List W} {db : σ} {pending rows : List W} {u : Unit}
    (h : (Body.flush ws : Body σ W L E Unit).eval eng db pending = .ok (u, rows)) :
    rows = pending ++ ws ∧
      ∀ pre w post, ws = pre ++ w :: post →
        eng.rejects (eng.view db (pending ++ pre)) w = false := by
  induction ws generalizing pending with
  | nil =>
    simp only [Body.flush, eval_ret, Except.ok.injEq, Prod.mk.injEq] at h
    refine ⟨by simp [h.2], ?_⟩
    intro pre w post hw
    simp at hw
  | cons w ws ih =>
    simp only [Body.flush, Body.eval] at h
    split at h
    · cases h
    · next hr =>
      obtain ⟨hrows, hacc⟩ := ih h
      refine ⟨by simp [hrows], ?_⟩
      intro pre w' post hw
      cases pre with
      | nil =>
        simp only [List.nil_append, List.cons.injEq] at hw
        rw [← hw.1]
        simpa using hr
      | cons x pre =>
        simp only [List.cons_append, List.cons.injEq] at hw
        have := hacc pre w' post hw.2
        rw [hw.1] at this
        simpa using this

end Exec

/-! ## §6. Computations between statements. -/

/-- A computation that succeeds went through its first part. -/
theorem ok_of_bind {ε α β : Type} {x : Except ε α} {f : α → Except ε β} {r : β}
    (h : (x >>= f) = .ok r) : ∃ a, x = .ok a ∧ f a = .ok r := by
  cases x with
  | error e => cases h
  | ok a => exact ⟨a, rfl, h⟩

/-- A computation that succeeds after a check passed the check. -/
theorem ok_of_guard {ε α : Type} {c : Prop} [Decidable c] {e : ε} {f : PUnit → Except ε α} {r : α}
    (h : (if c then throw e >>= f else f ()) = .ok r) : ¬ c ∧ f () = .ok r := by
  split at h
  · cases h
  · next hc => exact ⟨hc, h⟩

/-- A loop that succeeds succeeded in every round. -/
theorem ok_of_mapM {ε α β : Type} {f : α → Except ε β} {as : List α} {bs : List β}
    (h : as.mapM f = .ok bs) : as.length = bs.length ∧ ∀ p ∈ as.zip bs, f p.1 = .ok p.2 := by
  induction as generalizing bs with
  | nil =>
    cases h
    refine ⟨rfl, ?_⟩
    intro p hp
    cases hp
  | cons a as ih =>
    rw [List.mapM_cons] at h
    obtain ⟨b, hb, h⟩ := ok_of_bind h
    obtain ⟨bs', hbs, h⟩ := ok_of_bind h
    cases h
    obtain ⟨hlength, hall⟩ := ih hbs
    refine ⟨by rw [List.length_cons, List.length_cons, hlength], ?_⟩
    intro p hp
    rcases List.mem_cons.mp hp with rfl | hp
    · exact hb
    · exact hall p hp

/-- Everything that a computation can raise satisfies `P`. -/
def Raises {ε α : Type} (P : ε → Prop) (x : Except ε α) : Prop := ∀ e, x = .error e → P e

section Raises

variable {ε α β : Type} {P Q : ε → Prop}

theorem raises_ok (a : α) : Raises P (.ok a) := by
  intro e he
  cases he

theorem raises_error {e : ε} (h : P e) : Raises P (.error e : Except ε α) := by
  intro e' he
  cases he
  exact h

theorem Raises.bind {x : Except ε α} {f : α → Except ε β} (hx : Raises P x)
    (hf : ∀ a, Raises P (f a)) : Raises P (x >>= f) := by
  intro e he
  cases x with
  | error e' =>
    cases he
    exact hx e rfl
  | ok a => exact hf a e he

/-- The continuation may use what the first part returned. -/
theorem Raises.bind_of_ok {x : Except ε α} {f : α → Except ε β} (hx : Raises P x)
    (hf : ∀ a, x = .ok a → Raises P (f a)) : Raises P (x >>= f) := by
  intro e he
  cases x with
  | error e' =>
    cases he
    exact hx e rfl
  | ok a => exact hf a rfl e he

/-- The computation behind a check may use that it passed. -/
theorem raises_guard_of {c : Prop} [Decidable c] {e : ε} {f : PUnit → Except ε α} (he : P e)
    (hf : ¬ c → Raises P (f ())) : Raises P (if c then throw e >>= f else f ()) := by
  split
  · exact raises_error he
  · next hc => exact hf hc

/-- A check in front of a computation. -/
theorem raises_guard {c : Prop} [Decidable c] {e : ε} {f : PUnit → Except ε α} (he : P e)
    (hf : Raises P (f ())) : Raises P (if c then throw e >>= f else f ()) := by
  split
  · exact raises_error he
  · exact hf

theorem Raises.imp {x : Except ε α} (hx : Raises P x) (h : ∀ e, P e → Q e) : Raises Q x :=
  fun e he => h e (hx e he)

theorem Raises.map {x : Except ε α} {f : α → β} (hx : Raises P x) : Raises P (x.map f) := by
  intro e he
  cases x with
  | error e' =>
    cases he
    exact hx e rfl
  | ok a => cases he

end Raises

end Transact
