import Lyte.Lib.Interleaving
import Mathlib.Logic.Relation

/-
  Lyte.Lib.Contract — rules for the contracts of `Lib/Interleaving.lean`.

  `Body.Sat R X` is the contract of a transaction body: `R` holds of what it
  returns with, of the rows it has written and of the locks it holds, and `X`
  of every exception that leaves it.  There is one rule for each way a body or
  a call is put together, so that the contract of an operation is proved along
  its text:

      Body.sat_bind, Body.sat_select, …   inside a transaction;
      sat_transaction, sat_readSession    at its boundaries;
      sat_bind, sat_tryCatch              between transactions.

  `exec_sat` reads the same contract as a statement about a call that runs
  alone under a fault plan.
-/

namespace Transact

section Rules

variable {σ W L K E α β : Type} {eng : Engine σ W E} {idx : Index σ W L K} {F : E → Prop}
variable {G : σ → List W → Prop}

/-! ## §1. Bodies. -/

/-- The contract of a transaction body that has written `pending` and holds
`held`. -/
def Body.Sat (eng : Engine σ W E) (idx : Index σ W L K) (F : E → Prop) (G : σ → List W → Prop)
    (R : α → σ → List W → List L → Prop) (X : E → σ → Prop) :
    Body σ W L E α → σ → List W → List L → Prop
  | .ret a, db, pending, held => R a db pending held
  | .raise e, db, _, _ => X e db
  | .stmt s k, db, pending, held =>
      ∀ db', Env eng idx G held db db' →
        (match s with
          | .select => (k (eng.view db' pending)).Sat eng idx F G R X db' pending held
          | .lock row => (k (eng.view db' pending)).Sat eng idx F G R X db' pending
              ((row (eng.view db' pending)).toList ++ held)
          | .insert w =>
              (∀ l, idx.guard w = some l → l ∈ held) ∧
              (eng.rejects (eng.view db' pending) w = false →
                (k (eng.view db' pending)).Sat eng idx F G R X db' (pending ++ [w]) held) ∧
              (eng.rejects (eng.view db' pending) w = true → X eng.integrity db')) ∧
        (∀ e, F e → X e db')

variable {R : α → σ → List W → List L → Prop} {X : E → σ → Prop}

@[simp] theorem Body.sat_ret {a : α} {db : σ} {pending : List W} {held : List L} :
    (Body.ret a : Body σ W L E α).Sat eng idx F G R X db pending held ↔ R a db pending held :=
  Iff.rfl

@[simp] theorem Body.sat_raise {e : E} {db : σ} {pending : List W} {held : List L} :
    (Body.raise e : Body σ W L E α).Sat eng idx F G R X db pending held ↔ X e db :=
  Iff.rfl

/-- A bind is kept by the contract whose postcondition is the rest. -/
theorem Body.sat_bind {b : Body σ W L E α} {f : α → Body σ W L E β}
    {R : β → σ → List W → List L → Prop} {db : σ} {pending : List W} {held : List L}
    (h : b.Sat eng idx F G (fun a db pending held => (f a).Sat eng idx F G R X db pending held) X
      db pending held) :
    (b.bind f).Sat eng idx F G R X db pending held := by
  induction b generalizing db pending held with
  | ret a => exact h
  | raise e => exact h
  | stmt s k ih =>
    intro db' henv
    obtain ⟨hs, hfault⟩ := h db' henv
    refine ⟨?_, hfault⟩
    cases s with
    | select => exact ih _ hs
    | lock row => exact ih _ hs
    | insert w => exact ⟨hs.1, fun hr => ih _ (hs.2.1 hr), hs.2.2⟩

/-- A contract may promise less. -/
theorem Body.Sat.imp {b : Body σ W L E α} {R' : α → σ → List W → List L → Prop}
    {X' : E → σ → Prop} {db : σ} {pending : List W} {held : List L}
    (h : b.Sat eng idx F G R X db pending held)
    (hR : ∀ a db pending held, R a db pending held → R' a db pending held)
    (hX : ∀ e db, X e db → X' e db) :
    b.Sat eng idx F G R' X' db pending held := by
  induction b generalizing db pending held with
  | ret a => exact hR _ _ _ _ h
  | raise e => exact hX _ _ h
  | stmt s k ih =>
    intro db' henv
    obtain ⟨hs, hfault⟩ := h db' henv
    refine ⟨?_, fun e he => hX _ _ (hfault e he)⟩
    cases s with
    | select => exact ih _ hs
    | lock row => exact ih _ hs
    | insert w => exact ⟨hs.1, fun hr => ih _ (hs.2.1 hr), fun hr => hX _ _ (hs.2.2 hr)⟩

/-- A SELECT sees some later committed state. -/
theorem Body.sat_select {q : σ → α} {db : σ} {pending : List W} {held : List L}
    (h : ∀ db', Env eng idx G held db db' → R (q (eng.view db' pending)) db' pending held)
    (hX : ∀ e, F e → ∀ db', Env eng idx G held db db' → X e db') :
    (Body.select q : Body σ W L E α).Sat eng idx F G R X db pending held :=
  fun db' henv => ⟨h db' henv, fun e he => hX e he db' henv⟩

/-- A SELECT … FOR UPDATE also takes the lock of the row it finds. -/
theorem Body.sat_selectForUpdate {row : σ → Option L} {q : σ → α} {db : σ} {pending : List W}
    {held : List L}
    (h : ∀ db', Env eng idx G held db db' →
      R (q (eng.view db' pending)) db' pending ((row (eng.view db' pending)).toList ++ held))
    (hX : ∀ e, F e → ∀ db', Env eng idx G held db db' → X e db') :
    (Body.selectForUpdate row q : Body σ W L E α).Sat eng idx F G R X db pending held :=
  fun db' henv => ⟨h db' henv, fun e he => hX e he db' henv⟩

/-- A computation of the client returns or raises where it stands. -/
theorem Body.sat_ofExcept {x : Except E α} {db : σ} {pending : List W} {held : List L}
    (hok : ∀ a, x = .ok a → R a db pending held) (herr : ∀ e, x = .error e → X e db) :
    (Body.ofExcept x : Body σ W L E α).Sat eng idx F G R X db pending held := by
  cases x with
  | ok a => exact hok a rfl
  | error e => exact herr e rfl

/-- **A flush writes all its rows or raises**; it needs the locks that guard
them.  A row that the engine refuses is refused behind the rows before it. -/
theorem Body.sat_flush_refused {ws : List W} {R : Unit → σ → List W → List L → Prop} {db : σ}
    {pending : List W} {held : List L}
    (hguard : ∀ w ∈ ws, ∀ l, idx.guard w = some l → l ∈ held)
    (h : ∀ db', Env eng idx G held db db' → R () db' (pending ++ ws) held)
    (hrefuse : ∀ db' mid w post, ws = mid ++ w :: post → Env eng idx G held db db' →
      eng.rejects (eng.view db' (pending ++ mid)) w = true → X eng.integrity db')
    (hX : ∀ e, F e → ∀ db', Env eng idx G held db db' → X e db') :
    (Body.flush ws : Body σ W L E Unit).Sat eng idx F G R X db pending held := by
  induction ws generalizing db pending with
  | nil => simpa [Body.flush] using h db .refl
  | cons w ws ih =>
    intro db' henv
    refine ⟨⟨hguard w (by simp), fun _ => ?_, fun hr => ?_⟩, fun e he => hX e he db' henv⟩
    · refine ih (fun w' hw' => hguard w' (by simp [hw'])) ?_ ?_ ?_
      · intro db'' henv'
        simpa using h db'' (henv.trans eng idx henv')
      · intro db'' mid x post hx henv' hr
        refine hrefuse db'' (w :: mid) x post (by rw [hx]; rfl) (henv.trans eng idx henv') ?_
        rw [List.append_cons]
        exact hr
      · exact fun e he db'' henv' => hX e he db'' (henv.trans eng idx henv')
    · refine hrefuse db' [] w ws rfl henv ?_
      rw [List.append_nil]
      exact hr

/-- The same, where it does not matter why a row is refused. -/
theorem Body.sat_flush {ws : List W} {R : Unit → σ → List W → List L → Prop} {db : σ}
    {pending : List W} {held : List L}
    (hguard : ∀ w ∈ ws, ∀ l, idx.guard w = some l → l ∈ held)
    (h : ∀ db', Env eng idx G held db db' → R () db' (pending ++ ws) held)
    (hrefuse : ∀ db', Env eng idx G held db db' → X eng.integrity db')
    (hX : ∀ e, F e → ∀ db', Env eng idx G held db db' → X e db') :
    (Body.flush ws : Body σ W L E Unit).Sat eng idx F G R X db pending held :=
  Body.sat_flush_refused hguard h (fun db' _ _ _ _ henv _ => hrefuse db' henv) hX

/-! ## §2. Calls. -/

variable {Q : Except E α → List (σ × List W) → σ → Prop}

/-- **A transaction**: where its body returns, the rows may be committed in any
later state in which they are fresh; where it raises, nothing is left of it. -/
theorem sat_transaction {b : Body σ W L E α} {db : σ} {pending : List W} {held : List L}
    {done : List (σ × List W)}
    (h : b.Sat eng idx F G
      (fun a db pending held => ∀ db', Env eng idx G held db db' → idx.Fresh db' pending →
        (G db' pending ∧ ∀ db'', Env eng idx G [] (eng.commit db' pending) db'' →
          Q (.ok a) (done ++ [(db', pending)]) db'') ∧
        (∀ e, F e → ∀ db'', Env eng idx G [] db' db'' → Q (.error e) done db''))
      (fun e db => ∀ db', Env eng idx G [] db db' → Q (.error e) done db')
      db pending held) :
    Sat eng idx F G Q (transaction b) db pending held done := by
  induction b generalizing db pending held with
  | ret a =>
    intro db' henv hfresh
    obtain ⟨⟨hG, hq⟩, hfault⟩ := h db' henv hfresh
    exact ⟨⟨hG, rfl, rfl, hq⟩, fun e he => ⟨rfl, rfl, hfault e he⟩⟩
  | raise e =>
    intro db' henv
    exact ⟨rfl, rfl, fun db'' henv' =>
      h db'' ((henv.mono eng idx (by simp)).trans eng idx henv')⟩
  | stmt s k ih =>
    intro db' henv
    obtain ⟨hs, hfault⟩ := h db' henv
    refine ⟨?_, fun e he => ⟨rfl, rfl, hfault e he⟩⟩
    cases s with
    | select => exact ih _ hs
    | lock row => exact ih _ hs
    | insert w => exact ⟨hs.1, fun hr => ih _ (hs.2.1 hr), fun hr => ⟨rfl, rfl, hs.2.2 hr⟩⟩

/-- A session without `begin()` commits nothing. -/
theorem sat_readSession {b : Body σ W L E α} {db : σ} {pending : List W} {held : List L}
    {done : List (σ × List W)}
    (h : b.Sat eng idx F G
      (fun a db _ _ => ∀ db', Env eng idx G [] db db' → Q (.ok a) done db')
      (fun e db => ∀ db', Env eng idx G [] db db' → Q (.error e) done db')
      db pending held) :
    Sat eng idx F G Q (readSession b) db pending held done := by
  induction b generalizing db pending held with
  | ret a =>
    intro db' henv
    exact ⟨rfl, rfl, fun db'' henv' =>
      h db'' ((henv.mono eng idx (by simp)).trans eng idx henv')⟩
  | raise e =>
    intro db' henv
    exact ⟨rfl, rfl, fun db'' henv' =>
      h db'' ((henv.mono eng idx (by simp)).trans eng idx henv')⟩
  | stmt s k ih =>
    intro db' henv
    obtain ⟨hs, hfault⟩ := h db' henv
    refine ⟨?_, fun e he => ⟨rfl, rfl, hfault e he⟩⟩
    cases s with
    | select => exact ih _ hs
    | lock row => exact ih _ hs
    | insert w => exact ⟨hs.1, fun hr => ih _ (hs.2.1 hr), fun hr => ⟨rfl, rfl, hs.2.2 hr⟩⟩

/-- A call is kept by the contract whose postcondition is the rest of it. -/
theorem sat_bind {p : Prog σ W L E α} {f : α → Prog σ W L E β}
    {Q : Except E β → List (σ × List W) → σ → Prop} {db : σ} {pending : List W} {held : List L}
    {done : List (σ × List W)}
    (h : Sat eng idx F G
      (fun r done db => match r with
        | .ok a => Sat eng idx F G Q (f a) db [] [] done
        | .error e => Sat eng idx F G Q (.raise e) db [] [] done) p db pending held done) :
    Sat eng idx F G Q (p.bind f) db pending held done := by
  induction p generalizing db pending held done with
  | ret a =>
    obtain ⟨rfl, rfl, hq⟩ := h
    exact hq db .refl
  | raise e =>
    obtain ⟨rfl, rfl, hq⟩ := h
    exact hq db .refl
  | stmt s k hd ihk ihh =>
    intro db' henv
    obtain ⟨hs, hfault⟩ := h db' henv
    refine ⟨?_, fun e he => ihh e (hfault e he)⟩
    cases s with
    | select => exact ihk _ hs
    | lock row => exact ihk _ hs
    | insert w => exact ⟨hs.1, fun hr => ihk _ (hs.2.1 hr), fun hr => ihh _ (hs.2.2 hr)⟩
  | commit k hd ihk ihh =>
    intro db' henv hfresh
    obtain ⟨⟨hG, hk⟩, hfault⟩ := h db' henv hfresh
    exact ⟨⟨hG, ihk hk⟩, fun e he => ihh e (hfault e he)⟩
  | rollback k ihk => exact fun db' henv => ihk (h db' henv)

/-- `try: p except …: h`. -/
theorem sat_tryCatch {p : Prog σ W L E α} {hd : E → Prog σ W L E α} {db : σ} {pending : List W}
    {held : List L} {done : List (σ × List W)}
    (h : Sat eng idx F G
      (fun r done db => match r with
        | .ok a => Sat eng idx F G Q (.ret a) db [] [] done
        | .error e => Sat eng idx F G Q (hd e) db [] [] done) p db pending held done) :
    Sat eng idx F G Q (p.tryCatch hd) db pending held done := by
  induction p generalizing db pending held done with
  | ret a =>
    obtain ⟨rfl, rfl, hq⟩ := h
    exact hq db .refl
  | raise e =>
    obtain ⟨rfl, rfl, hq⟩ := h
    exact hq db .refl
  | stmt s k hd' ihk ihh =>
    intro db' henv
    obtain ⟨hs, hfault⟩ := h db' henv
    refine ⟨?_, fun e he => ihh e (hfault e he)⟩
    cases s with
    | select => exact ihk _ hs
    | lock row => exact ihk _ hs
    | insert w => exact ⟨hs.1, fun hr => ihk _ (hs.2.1 hr), fun hr => ihh _ (hs.2.2 hr)⟩
  | commit k hd' ihk ihh =>
    intro db' henv hfresh
    obtain ⟨⟨hG, hk⟩, hfault⟩ := h db' henv hfresh
    exact ⟨⟨hG, ihk hk⟩, fun e he => ihh e (hfault e he)⟩
  | rollback k ihk => exact fun db' henv => ihk (h db' henv)

/-- A computation of the client between transactions. -/
theorem sat_ofExcept {x : Except E α} {db : σ} {done : List (σ × List W)}
    (h : ∀ db', Env eng idx G [] db db' → Q x done db') :
    Sat eng idx F G Q (Prog.ofExcept x) db [] [] done := by
  cases x with
  | ok a => exact ⟨rfl, rfl, h⟩
  | error e => exact ⟨rfl, rfl, h⟩

/-- A contract may promise less. -/
theorem Sat.imp {Q' : Except E α → List (σ × List W) → σ → Prop} {p : Prog σ W L E α} {db : σ}
    {pending : List W} {held : List L} {done : List (σ × List W)}
    (h : Sat eng idx F G Q p db pending held done)
    (hQ : ∀ r done db, Q r done db → Q' r done db) :
    Sat eng idx F G Q' p db pending held done := by
  induction p generalizing db pending held done with
  | ret a => exact ⟨h.1, h.2.1, fun db' henv => hQ _ _ _ (h.2.2 db' henv)⟩
  | raise e => exact ⟨h.1, h.2.1, fun db' henv => hQ _ _ _ (h.2.2 db' henv)⟩
  | stmt s k hd ihk ihh =>
    intro db' henv
    obtain ⟨hs, hfault⟩ := h db' henv
    refine ⟨?_, fun e he => ihh e (hfault e he)⟩
    cases s with
    | select => exact ihk _ hs
    | lock row => exact ihk _ hs
    | insert w => exact ⟨hs.1, fun hr => ihk _ (hs.2.1 hr), fun hr => ihh _ (hs.2.2 hr)⟩
  | commit k hd ihk ihh =>
    intro db' henv hfresh
    obtain ⟨⟨hG, hk⟩, hfault⟩ := h db' henv hfresh
    exact ⟨⟨hG, ihk hk⟩, fun e he => ihh e (hfault e he)⟩
  | rollback k ihk => exact fun db' henv => ihk (h db' henv)

/-- The answer of a call, put into another form. -/
theorem Sat.map {f : α → β} {Q' : Except E β → List (σ × List W) → σ → Prop} {p : Prog σ W L E α}
    {db : σ} {pending : List W} {held : List L} {done : List (σ × List W)}
    (h : Sat eng idx F G Q p db pending held done)
    (hQ : ∀ r done db, Q r done db → Q' (r.map f) done db) :
    Sat eng idx F G Q' (p.bind (fun a => .ret (f a))) db pending held done := by
  induction p generalizing db pending held done with
  | ret a => exact ⟨h.1, h.2.1, fun db' henv => hQ _ _ _ (h.2.2 db' henv)⟩
  | raise e => exact ⟨h.1, h.2.1, fun db' henv => hQ _ _ _ (h.2.2 db' henv)⟩
  | stmt s k hd ihk ihh =>
    intro db' henv
    obtain ⟨hs, hfault⟩ := h db' henv
    refine ⟨?_, fun e he => ihh e (hfault e he)⟩
    cases s with
    | select => exact ihk _ hs
    | lock row => exact ihk _ hs
    | insert w => exact ⟨hs.1, fun hr => ihk _ (hs.2.1 hr), fun hr => ihh _ (hs.2.2 hr)⟩
  | commit k hd ihk ihh =>
    intro db' henv hfresh
    obtain ⟨⟨hG, hk⟩, hfault⟩ := h db' henv hfresh
    exact ⟨⟨hG, ihk hk⟩, fun e he => ihh e (hfault e he)⟩
  | rollback k ihk => exact fun db' henv => ihk (h db' henv)

/-- What a call does does not depend on what it did before. -/
theorem Sat.frame {p : Prog σ W L E α} {db : σ} {pending : List W} {held : List L}
    {done before : List (σ × List W)} (h : Sat eng idx F G Q p db pending held done) :
    Sat eng idx F G (fun r all db => ∃ new, all = before ++ new ∧ Q r new db) p db pending held
      (before ++ done) := by
  induction p generalizing db pending held done with
  | ret a => exact ⟨h.1, h.2.1, fun db' henv => ⟨done, rfl, h.2.2 db' henv⟩⟩
  | raise e => exact ⟨h.1, h.2.1, fun db' henv => ⟨done, rfl, h.2.2 db' henv⟩⟩
  | stmt s k hd ihk ihh =>
    intro db' henv
    obtain ⟨hs, hfault⟩ := h db' henv
    refine ⟨?_, fun e he => ihh e (hfault e he)⟩
    cases s with
    | select => exact ihk _ hs
    | lock row => exact ihk _ hs
    | insert w => exact ⟨hs.1, fun hr => ihk _ (hs.2.1 hr), fun hr => ihh _ (hs.2.2 hr)⟩
  | commit k hd ihk ihh =>
    intro db' henv hfresh
    obtain ⟨⟨hG, hk⟩, hfault⟩ := h db' henv hfresh
    refine ⟨⟨hG, ?_⟩, fun e he => ihh e (hfault e he)⟩
    rw [List.append_assoc]
    exact ihk hk
  | rollback k ihk => exact fun db' henv => ihk (h db' henv)

/-- What no commit undoes is so at every commit of a call, if it is so at its start. -/
theorem Sat.always {Kept : σ → Prop}
    (hkept : ∀ db db', Kept db → Env eng idx G [] db db' → Kept db') {p : Prog σ W L E α} {db : σ}
    {pending : List W} {held : List L} {done : List (σ × List W)}
    (h : Sat eng idx F G Q p db pending held done) (hdb : Kept db)
    (hdone : ∀ c ∈ done, Kept c.1) :
    Sat eng idx F G (fun r all db => Q r all db ∧ ∀ c ∈ all, Kept c.1) p db pending held done := by
  have hlater : ∀ {held : List L} {db db' : σ}, Kept db → Env eng idx G held db db' → Kept db' :=
    fun hdb henv => hkept _ _ hdb (henv.mono eng idx (by simp))
  induction p generalizing db pending held done with
  | ret a => exact ⟨h.1, h.2.1, fun db' henv => ⟨h.2.2 db' henv, hdone⟩⟩
  | raise e => exact ⟨h.1, h.2.1, fun db' henv => ⟨h.2.2 db' henv, hdone⟩⟩
  | stmt s k hd ihk ihh =>
    intro db' henv
    have hdb' := hlater hdb henv
    obtain ⟨hs, hfault⟩ := h db' henv
    refine ⟨?_, fun e he => ihh e (hfault e he) hdb' hdone⟩
    cases s with
    | select => exact ihk _ hs hdb' hdone
    | lock row => exact ihk _ hs hdb' hdone
    | insert w =>
      exact ⟨hs.1, fun hr => ihk _ (hs.2.1 hr) hdb' hdone, fun hr => ihh _ (hs.2.2 hr) hdb' hdone⟩
  | commit k hd ihk ihh =>
    intro db' henv hfresh
    have hdb' := hlater hdb henv
    obtain ⟨⟨hG, hk⟩, hfault⟩ := h db' henv hfresh
    refine ⟨⟨hG, ihk hk ?_ ?_⟩, fun e he => ihh e (hfault e he) hdb' hdone⟩
    · exact hkept _ _ hdb' (.commit .refl hG hfresh (by simp))
    · intro c hc
      rcases List.mem_append.mp hc with hc | hc
      · exact hdone c hc
      · rw [List.mem_singleton.mp hc]
        exact hdb'
  | rollback k ihk => exact fun db' henv => ihk (h db' henv) (hlater hdb henv) hdone

/-! ## §3. Calls that commit once. -/

/-- How a call with at most one commit of its own ends: it failed without
effect, it returned without writing anything, or it committed once. -/
inductive Outcome (eng : Engine σ W E) (idx : Index σ W L K) (G : σ → List W → Prop)
    (C : σ → List W → α → Prop) (P : α → σ → Prop) (Err : E → Prop) :
    Except E α → List (σ × List W) → σ → Prop
  | failed {e db} : Err e → Outcome eng idx G C P Err (.error e) [] db
  | replayed {a done db} : P a db → (∀ c ∈ done, c.2 = []) →
      Outcome eng idx G C P Err (.ok a) done db
  | committed {a db rows db'} : C db rows a → idx.Fresh db rows →
      Env eng idx G [] (eng.commit db rows) db' →
      Outcome eng idx G C P Err (.ok a) [(db, rows)] db'

variable {C : σ → List W → α → Prop} {P : α → σ → Prop} {Err : E → Prop}

theorem Outcome.env {r : Except E α} {done : List (σ × List W)} {db db' : σ}
    (h : Outcome eng idx G C P Err r done db) (henv : Env eng idx G [] db db')
    (hP : ∀ a db db', P a db → Env eng idx G [] db db' → P a db') :
    Outcome eng idx G C P Err r done db' := by
  cases h with
  | failed he => exact .failed he
  | replayed hp hd => exact .replayed (hP _ _ _ hp henv) hd
  | committed hc hf he => exact .committed hc hf (he.trans eng idx henv)

/-- An outcome may be described by less. -/
theorem Outcome.imp {C' : σ → List W → α → Prop} {P' : α → σ → Prop} {r : Except E α}
    {done : List (σ × List W)} {db : σ} (h : Outcome eng idx G C P Err r done db)
    (hC : ∀ db rows a, C db rows a → C' db rows a) (hP : ∀ a db, P a db → P' a db) :
    Outcome eng idx G C' P' Err r done db := by
  cases h with
  | failed he => exact .failed he
  | replayed hp hd => exact .replayed (hP _ _ hp) hd
  | committed hc hf he => exact .committed (hC _ _ _ hc) hf he

/-- An outcome whose answer is put into another form. -/
theorem Outcome.map {f : α → β} {C' : σ → List W → β → Prop} {P' : β → σ → Prop}
    {Err' : E → Prop} {r : Except E α} {done : List (σ × List W)} {db : σ}
    (h : Outcome eng idx G C P Err r done db)
    (hC : ∀ db rows a, C db rows a → C' db rows (f a)) (hP : ∀ a db, P a db → P' (f a) db)
    (hErr : ∀ e, Err e → Err' e) :
    Outcome eng idx G C' P' Err' (r.map f) done db := by
  cases h with
  | failed he => exact .failed (hErr _ he)
  | replayed hp hd => exact .replayed (hP _ _ hp) hd
  | committed hc hf he => exact .committed (hC _ _ _ hc) hf he

/-- What a transaction body has to show: it wrote nothing and has its answer,
or its rows are right in every state in which they may be committed. -/
def BodyPost (eng : Engine σ W E) (idx : Index σ W L K) (G : σ → List W → Prop)
    (C : σ → List W → α → Prop) (P : α → σ → Prop) (a : α) (db : σ) (pending : List W)
    (held : List L) : Prop :=
  (pending = [] ∧ P a db) ∨
    ∀ db', Env eng idx G held db db' → idx.Fresh db' pending → C db' pending a

/-- **A transaction that commits its rows or nothing.** -/
theorem sat_transaction_outcome {b : Body σ W L E α} {db : σ}
    (h : b.Sat eng idx F G (BodyPost eng idx G C P) (fun e _ => Err e) db [] [])
    (hF : ∀ e, F e → Err e) (hG : ∀ db rows a, C db rows a → idx.Fresh db rows → G db rows)
    (hnil : ∀ db, G db []) (hP : ∀ a db db' held, P a db → Env eng idx G held db db' → P a db') :
    Sat eng idx F G (Outcome eng idx G C P Err) (transaction b) db [] [] [] := by
  refine sat_transaction (h.imp ?_ fun e db he _ _ => .failed he)
  intro a db pending held hpost db' henv hfresh
  refine ⟨?_, fun e he _ _ => .failed (hF e he)⟩
  rcases hpost with ⟨rfl, hp⟩ | hc
  · refine ⟨hnil db', fun db'' henv' => .replayed ?_ (by simp)⟩
    exact hP _ _ _ _ (hP _ _ _ _ hp henv) henv'
  · have hc' := hc db' henv hfresh
    exact ⟨hG _ _ _ hc' hfresh, fun db'' henv' => .committed hc' hfresh henv'⟩

/-- **Handlers around a call that commits once.** -/
theorem sat_tryCatch_outcome (Err' : E → Prop) {p : Prog σ W L E α} {hd : E → Prog σ W L E α} {db : σ}
    (h : Sat eng idx F G (Outcome eng idx G C P Err') p db [] [] [])
    (hh : ∀ e db, Err' e → Sat eng idx F G (Outcome eng idx G C P Err) (hd e) db [] [] [])
    (hP : ∀ a db db' held, P a db → Env eng idx G held db db' → P a db') :
    Sat eng idx F G (Outcome eng idx G C P Err) (p.tryCatch hd) db [] [] [] := by
  refine sat_tryCatch (h.imp ?_)
  rintro (e | a) done db hr
  · cases hr with
    | failed he => exact hh e db he
  · refine ⟨rfl, rfl, fun db' henv => ?_⟩
    refine Outcome.env ?_ henv (fun a db db' => hP a db db' [])
    cases hr with
    | replayed hp hd => exact .replayed hp hd
    | committed hc hf he => exact .committed hc hf he

/-- A lookup that answers from what is there. -/
theorem sat_readSession_outcome {b : Body σ W L E α} {db : σ}
    (h : b.Sat eng idx F G (fun a db _ _ => P a db) (fun e _ => Err e) db [] [])
    (hP : ∀ a db db' held, P a db → Env eng idx G held db db' → P a db') :
    Sat eng idx F G (Outcome eng idx G C P Err) (readSession b) db [] [] [] :=
  sat_readSession (h.imp
    (fun _ _ _ _ hp _ henv => .replayed (hP _ _ _ _ hp henv) (by simp))
    (fun _ _ he _ _ => .failed he))

theorem sat_raise_outcome {e : E} {db : σ} (he : Err e) :
    Sat eng idx F G (Outcome eng idx G C P Err) (Prog.raise e : Prog σ W L E α) db [] [] [] :=
  ⟨rfl, rfl, fun _ _ => .failed he⟩

theorem sat_ofExcept_bind {x : Except E β} {f : β → Prog σ W L E α} {db : σ}
    (hok : ∀ b, x = .ok b → Sat eng idx F G (Outcome eng idx G C P Err) (f b) db [] [] [])
    (herr : ∀ e, x = .error e → Err e) :
    Sat eng idx F G (Outcome eng idx G C P Err) ((Prog.ofExcept x).bind f) db [] [] [] := by
  cases x with
  | ok b => exact hok b rfl
  | error e => exact sat_raise_outcome (herr e rfl)

/-! ## §4. A call alone. -/

/-- The commits of a call that runs alone: each starts where the one before
ended. -/
inductive Trail (eng : Engine σ W E) (idx : Index σ W L K) (G : σ → List W → Prop) :
    σ → List (σ × List W) → σ → Prop
  | nil {db} : Trail eng idx G db [] db
  | cons {db rows rest db'} : G db rows → idx.Fresh db rows →
      Trail eng idx G (eng.commit db rows) rest db' → Trail eng idx G db ((db, rows) :: rest) db'

/-- To another call, those commits are commits of others. -/
theorem Trail.env {db db' : σ} {done : List (σ × List W)} (h : Trail eng idx G db done db') :
    Env eng idx G [] db db' := by
  induction h with
  | nil => exact .refl
  | cons hG hf _ ih => exact (Env.refl.commit hG hf (by simp)).trans eng idx ih

theorem issue_faults (eng : Engine σ W E) (st : Stmt σ W L) (db : σ) (pending : List W)
    {fs : List (Option E)} {r : Except (E × Session σ W E) (Session σ W E)}
    (hr : Session.issue eng st ⟨db, pending, fs⟩ = r) (hF : ∀ e, some e ∈ fs → F e) :
    (∃ e fs', r = .error (e, .idle db fs') ∧ (∀ e, some e ∈ fs' → F e) ∧
      (F e ∨ ∃ w, st = .insert w ∧ eng.rejects (eng.view db pending) w = true ∧
        e = eng.integrity)) ∨
    (∃ rows fs', r = .ok ⟨db, rows, fs'⟩ ∧ (∀ e, some e ∈ fs' → F e) ∧
      ((∃ w, st = .insert w ∧ eng.rejects (eng.view db pending) w = false ∧
        rows = pending ++ [w]) ∨ ((∀ w, st ≠ .insert w) ∧ rows = pending))) := by
  subst hr
  have htail : ∀ e, some e ∈ fs.tail → F e := fun e he => hF e (List.mem_of_mem_tail he)
  simp only [Session.issue]
  split
  · next e rest =>
    exact .inl ⟨e, rest, rfl, fun e' he' => hF e' (List.mem_cons_of_mem _ he'),
      .inl (hF e List.mem_cons_self)⟩
  · cases st with
    | select => exact .inr ⟨pending, _, rfl, htail, .inr ⟨by simp, rfl⟩⟩
    | lock row => exact .inr ⟨pending, _, rfl, htail, .inr ⟨by simp, rfl⟩⟩
    | insert w =>
      by_cases hw : eng.rejects (eng.view db pending) w = true
      · exact .inl ⟨eng.integrity, _, by simp [hw], htail, .inr ⟨w, rfl, hw, rfl⟩⟩
      · exact .inr ⟨_, _, by simp [hw], htail, .inl ⟨w, rfl, by simpa using hw, rfl⟩⟩

theorem close_faults (eng : Engine σ W E) (db : σ) (pending : List W) {fs : List (Option E)}
    (hF : ∀ e, some e ∈ fs → F e) :
    (∃ e fs', Session.close eng ⟨db, pending, fs⟩ = .error (e, .idle db fs') ∧ F e ∧
      ∀ e, some e ∈ fs' → F e) ∨
    (∃ fs', Session.close eng ⟨db, pending, fs⟩ = .ok (.idle (eng.commit db pending) fs') ∧
      ∀ e, some e ∈ fs' → F e) := by
  simp only [Session.close]
  split
  · next e rest =>
    exact .inl ⟨e, rest, rfl, hF e List.mem_cons_self,
      fun e' he' => hF e' (List.mem_cons_of_mem _ he')⟩
  · exact .inr ⟨_, rfl, fun e he => hF e (List.mem_of_mem_tail he)⟩

/-- **A contract, read for a call that runs alone** under a fault plan of
exceptions in `F`. -/
theorem exec_sat (law : idx.Lawful eng) (fs : List (Option E)) {p : Prog σ W L E α} {db : σ}
    {pending : List W} {held : List L} {done : List (σ × List W)}
    (h : Sat eng idx F G Q p db pending held done) (hfresh : idx.Fresh db pending)
    (hF : ∀ e, some e ∈ fs → F e) :
    ∃ done' db' fs', (p.exec eng ⟨db, pending, fs⟩).2 = .idle db' fs' ∧
      Trail eng idx G db done' db' ∧
      Q (p.exec eng ⟨db, pending, fs⟩).1 (done ++ done') db' := by
  induction p generalizing db pending held done fs with
  | ret a =>
    obtain ⟨rfl, rfl, hq⟩ := h
    exact ⟨[], db, fs, rfl, .nil, by simpa [Prog.exec] using hq db .refl⟩
  | raise e =>
    obtain ⟨rfl, rfl, hq⟩ := h
    exact ⟨[], db, fs, rfl, .nil, by simpa [Prog.exec] using hq db .refl⟩
  | stmt s k hd ihk ihh =>
    obtain ⟨hs, hfault⟩ := h db .refl
    simp only [Prog.exec]
    rcases issue_faults eng s db pending rfl hF with
      ⟨e, fs', hi, hF', hcase⟩ | ⟨rows, fs', hi, hF', hcase⟩
    · rw [hi]
      rcases hcase with he | ⟨w, rfl, hw, rfl⟩
      · exact ihh e _ (hfault e he) (Index.Fresh.nil idx db) hF'
      · exact ihh _ _ (hs.2.2 hw) (Index.Fresh.nil idx db) hF'
    · rw [hi]
      rcases hcase with ⟨w, rfl, hw, rfl⟩ | ⟨hne, rfl⟩
      · exact ihk _ _ (hs.2.1 hw) (hfresh.append law hw) hF'
      · cases s with
        | select => exact ihk _ _ hs hfresh hF'
        | lock row => exact ihk _ _ hs hfresh hF'
        | insert w => exact absurd rfl (hne w)
  | commit k hd ihk ihh =>
    obtain ⟨⟨hG, hk⟩, hfault⟩ := h db .refl hfresh
    simp only [Prog.exec]
    rcases close_faults eng db pending hF with
      ⟨e, fs', hc, he, hF'⟩ | ⟨fs', hc, hF'⟩
    · rw [hc]
      exact ihh e _ (hfault e he) (Index.Fresh.nil idx db) hF'
    · rw [hc]
      obtain ⟨done', db', fs'', hdb, htrail, hq⟩ := ihk _ hk (Index.Fresh.nil idx _) hF'
      rw [List.append_assoc] at hq
      exact ⟨(db, pending) :: done', db', fs'', hdb, .cons hG hfresh htrail, hq⟩
  | rollback k ihk =>
    exact ihk _ (h db .refl) (Index.Fresh.nil idx db) hF

/-! ## §5. Many calls that commit once. -/

section Calls

variable {ι : Type} [DecidableEq ι] {db₀ : σ} {c : Config σ W L E α ι}

theorem mem_commitsOf {log : List (CommitEvent σ W ι)} {e : CommitEvent σ W ι} (he : e ∈ log) :
    (e.before, e.rows) ∈ commitsOf log e.who := by
  unfold commitsOf
  exact List.mem_map.mpr ⟨e, List.mem_filter.mpr ⟨he, by simp⟩, rfl⟩

/-- Calls may promise less. -/
theorem Inv.imp {Q Q' : ι → Except E α → List (σ × List W) → σ → Prop}
    (hinv : Inv eng idx F G Q db₀ c) (h : ∀ i r done db, Q i r done db → Q' i r done db) :
    Inv eng idx F G Q' db₀ c :=
  { hinv with sat := fun i => (hinv.sat i).imp (h i) }

/-- **What a call promises may be changed on the way**, as long as what is left of
every call keeps its new promise. -/
theorem Inv.promise {Q Q' : ι → Except E α → List (σ × List W) → σ → Prop}
    (hinv : Inv eng idx F G Q db₀ c)
    (h : ∀ i, Sat eng idx F G (Q' i) (c.calls i).prog c.db (c.calls i).pending (c.calls i).held
      (commitsOf c.log i)) : Inv eng idx F G Q' db₀ c :=
  { hinv with sat := h }

/-- A call of `prog` that has not issued a statement yet. -/
structure Config.Unstarted (c : Config σ W L E α ι) (prog : ι → Prog σ W L E α) (i : ι) : Prop where
  whole : c.calls i = ⟨prog i, [], []⟩
  silent : ∀ e ∈ c.log, e.who ≠ i

theorem Config.Unstarted.commitsOf {prog : ι → Prog σ W L E α} {i : ι} (h : c.Unstarted prog i) :
    Transact.commitsOf c.log i = [] := by
  unfold Transact.commitsOf
  rw [List.filter_eq_nil_iff.mpr, List.map_nil]
  intro e he hwho
  exact h.silent e he (by simpa using hwho)

omit [DecidableEq ι] in
theorem Config.unstarted_start (db : σ) (prog : ι → Prog σ W L E α) (i : ι) :
    (Config.start db prog).Unstarted prog i :=
  ⟨rfl, fun _ he => by cases he⟩

/-- **A call that has not begun may promise more**, about the rows it will find. -/
theorem Inv.unstarted {Q : ι → Except E α → List (σ × List W) → σ → Prop}
    {R : Except E α → List (σ × List W) → σ → Prop} (law : idx.Lawful eng)
    (hinv : Inv eng idx F G Q db₀ c) {prog : ι → Prog σ W L E α} {i : ι} (hi : c.Unstarted prog i)
    (hsat : Sat eng idx F G R (prog i) c.db [] [] []) {c' : Config σ W L E α ι}
    (hreach : Reach eng idx F c c') :
    Inv eng idx F G (fun j => if j = i then R else Q j) db₀ c' := by
  refine (hinv.promise (fun j => ?_)).reach law hreach
  by_cases hj : j = i
  · subst hj
    rw [if_pos rfl, hi.whole, hi.commitsOf]
    exact hsat
  · rw [if_neg hj]
    exact hinv.sat j

/-- What a call has committed so far is the beginning of what it commits. -/
theorem Inv.commits_begin {Q : ι → Except E α → List (σ × List W) → σ → Prop}
    (law : idx.Lawful eng) (hinv : Inv eng idx F G Q db₀ c) (i : ι) :
    ∃ r more db, Q i r (commitsOf c.log i ++ more) db := by
  obtain ⟨more, db, _, _, _, hq⟩ :=
    exec_sat law [] (hinv.sat i) (hinv.fresh i) (by simp)
  exact ⟨_, more, db, hq⟩

variable {C : ι → σ → List W → α → Prop} {P : ι → α → σ → Prop} {Err : ι → E → Prop}

/-- **A commit that wrote rows is the only one of its call**, and as its
contract describes. -/
theorem Inv.commit_once (law : idx.Lawful eng)
    (hinv : Inv eng idx F G (fun i => Outcome eng idx G (C i) (P i) (Err i)) db₀ c)
    {e : CommitEvent σ W ι} (he : e ∈ c.log) (hne : e.rows ≠ []) :
    commitsOf c.log e.who = [(e.before, e.rows)] ∧ ∃ a, C e.who e.before e.rows a := by
  have hmem := mem_commitsOf he
  obtain ⟨r, more, db, hq⟩ := hinv.commits_begin law e.who
  generalize hall : commitsOf c.log e.who ++ more = all at hq
  have hin : (e.before, e.rows) ∈ all := hall ▸ List.mem_append_left _ hmem
  cases hq with
  | failed => cases hin
  | replayed _ hnil => exact absurd (hnil _ hin) hne
  | committed hc =>
    rw [List.mem_singleton] at hin
    cases hin
    refine ⟨?_, _, hc⟩
    have hmore : more = [] := by
      cases more with
      | nil => rfl
      | cons x xs =>
        have hlen := congrArg List.length hall
        have hpos := List.length_pos_of_mem hmem
        simp at hlen
        omega
    rw [← hall, hmore, List.append_nil]

/-- A call that has returned keeps its contract. -/
theorem Inv.returned {Q : ι → Except E α → List (σ × List W) → σ → Prop}
    (hinv : Inv eng idx F G Q db₀ c) {i : ι} {a : α} (hp : (c.calls i).prog = .ret a) :
    Q i (.ok a) (commitsOf c.log i) c.db := by
  have hsat := hinv.sat i
  rw [hp] at hsat
  exact hsat.2.2 _ .refl

/-- A call that has raised keeps its contract. -/
theorem Inv.raised {Q : ι → Except E α → List (σ × List W) → σ → Prop}
    (hinv : Inv eng idx F G Q db₀ c) {i : ι} {e : E} (hp : (c.calls i).prog = .raise e) :
    Q i (.error e) (commitsOf c.log i) c.db := by
  have hsat := hinv.sat i
  rw [hp] at hsat
  exact hsat.2.2 _ .refl

/-- **A call that has raised has committed nothing.** -/
theorem Inv.raised_once
    (hinv : Inv eng idx F G (fun i => Outcome eng idx G (C i) (P i) (Err i)) db₀ c) {i : ι} {e : E}
    (hp : (c.calls i).prog = .raise e) : Err i e ∧ commitsOf c.log i = [] := by
  have hq := hinv.raised hp
  generalize commitsOf c.log i = done at hq
  cases hq with
  | failed he => exact ⟨he, rfl⟩

end Calls

end Rules

/-! ## §6. A call alone, among many. -/

section Alone

variable {σ W L K E α ι : Type} [DecidableEq ι] {eng : Engine σ W E} {idx : Index σ W L K}
variable {F : E → Prop}

/-- No other call has an open transaction. -/
def Config.Alone (c : Config σ W L E α ι) (i : ι) : Prop :=
  ∀ j, j ≠ i → (c.calls j).pending = [] ∧ (c.calls j).held = []

theorem Config.Alone.put {c : Config σ W L E α ι} {i : ι} (h : c.Alone i)
    (r : Running σ W L E α) : (c.put i r).Alone i := by
  intro j hj
  rw [put_other c r hj]
  exact h j hj

/-- `c'` is `c` after call `i` ran to its end. -/
structure Ran (eng : Engine σ W E) (i : ι) (c c' : Config σ W L E α ι)
    (r : Except E α × Session σ W E) : Prop where
  db : c'.db = r.2.db
  prog : (c'.calls i).prog = Prog.ofExcept r.1
  others : ∀ j, j ≠ i → c'.calls j = c.calls j

theorem Ran.put {c c' : Config σ W L E α ι} {i : ι} {r : Except E α × Session σ W E}
    {x : Running σ W L E α} (h : Ran eng i (c.put i x) c' r) : Ran eng i c c' r where
  db := h.db
  prog := h.prog
  others j hj := (h.others j hj).trans (put_other c x hj)

/-- **A call that runs alone**, as steps of its own. -/
theorem steps_exec (idx : Index σ W L K) {c : Config σ W L E α ι} {i : ι} (fs : List (Option E))
    (halone : c.Alone i) (hF : ∀ e, some e ∈ fs → F e) :
    ∃ c', Relation.ReflTransGen (Step eng idx F i) c c' ∧
      Ran eng i c c' ((c.calls i).prog.exec eng ⟨c.db, (c.calls i).pending, fs⟩) := by
  generalize hp : (c.calls i).prog = p
  induction p generalizing c fs with
  | ret a => exact ⟨c, .refl, rfl, hp, fun _ _ => rfl⟩
  | raise e => exact ⟨c, .refl, rfl, hp, fun _ _ => rfl⟩
  | stmt s k hd ihk ihh =>
    unfold Prog.exec
    rcases issue_faults eng s c.db (c.calls i).pending rfl hF with
      ⟨e, fs', hi, hF', hcase⟩ | ⟨rows, fs', hi, hF', hcase⟩
    · rw [hi]
      have hstep : Step eng idx F i c (c.put i ⟨hd e, [], []⟩) := by
        rcases hcase with he | ⟨w, rfl, hw, rfl⟩
        · exact .stmtFault hp he
        · exact .refuse hp hw
      obtain ⟨c', hsteps, hran⟩ := ihh e _ (halone.put ⟨hd e, [], []⟩) hF' (by rw [put_self])
      rw [put_self] at hran
      exact ⟨c', hsteps.head hstep, hran.put⟩
    · rw [hi]
      obtain ⟨held, hstep⟩ : ∃ held, Step eng idx F i c (c.put i
          ⟨k (eng.view c.db (c.calls i).pending), rows, held⟩) := by
        rcases hcase with ⟨w, rfl, hw, rfl⟩ | ⟨hne, rfl⟩
        · refine ⟨_, .insert hp hw ?_⟩
          intro j hj
          rw [(halone j hj).1]
          simp [Index.keysOf]
        · cases s with
          | select => exact ⟨_, .select hp⟩
          | lock row =>
            refine ⟨_, .lock hp ?_⟩
            intro j hj
            rw [(halone j hj).2]
            simp
          | insert w => exact absurd rfl (hne w)
      obtain ⟨c', hsteps, hran⟩ := ihk (eng.view c.db (c.calls i).pending) _
        (halone.put ⟨k (eng.view c.db (c.calls i).pending), rows, held⟩) hF' (by rw [put_self])
      rw [put_self] at hran
      exact ⟨c', hsteps.head hstep, hran.put⟩
  | commit k hd ihk ihh =>
    unfold Prog.exec
    rcases close_faults eng c.db (c.calls i).pending hF with ⟨e, fs', hc, he, hF'⟩ | ⟨fs', hc, hF'⟩
    · rw [hc]
      obtain ⟨c', hsteps, hran⟩ := ihh e _ (halone.put ⟨hd e, [], []⟩) hF' (by rw [put_self])
      rw [put_self] at hran
      exact ⟨c', hsteps.head (.commitFault hp he), hran.put⟩
    · rw [hc]
      have hstep : Step eng idx F i c _ := .commit hp
      obtain ⟨c', hsteps, hran⟩ := ihk (c := ⟨eng.commit c.db (c.calls i).pending,
        (c.put i ⟨k, [], []⟩).calls, c.log ++ [⟨i, c.db, (c.calls i).pending⟩]⟩) _
        (halone.put ⟨k, [], []⟩) hF' (by rw [put_self])
      rw [put_self] at hran
      exact ⟨c', hsteps.head hstep, hran.db, hran.prog,
        fun j hj => (hran.others j hj).trans (put_other c _ hj)⟩
  | rollback k ihk =>
    unfold Prog.exec
    obtain ⟨c', hsteps, hran⟩ := ihk _ (halone.put ⟨k, [], []⟩) hF (by rw [put_self])
    rw [put_self] at hran
    exact ⟨c', hsteps.head (.rollback hp), hran.put⟩

/-- **A call that runs alone is one of the interleavings.** -/
theorem reach_exec (idx : Index σ W L K) {c : Config σ W L E α ι} {i : ι} (fs : List (Option E))
    (halone : c.Alone i) (hF : ∀ e, some e ∈ fs → F e) :
    ∃ c', Reach eng idx F c c' ∧
      Ran eng i c c' ((c.calls i).prog.exec eng ⟨c.db, (c.calls i).pending, fs⟩) := by
  obtain ⟨c', hsteps, hran⟩ := steps_exec idx fs halone hF
  refine ⟨c', ?_, hran⟩
  clear hran
  induction hsteps with
  | refl => exact .refl
  | tail _ hs ih => exact .step ih hs

/-- **A call that nobody blocks and no fault hits comes to its end**, with what it
promises. -/
theorem reach_alone {G : σ → List W → Prop} {Q : Except E α → List (σ × List W) → σ → Prop}
    (law : idx.Lawful eng) {c : Config σ W L E α ι} {i : ι} {p : Prog σ W L E α}
    (hi : c.calls i = ⟨p, [], []⟩) (halone : c.Alone i)
    (hsat : Sat eng idx (fun _ => False) G Q p c.db [] [] []) :
    ∃ c' r done db, Reach eng idx F c c' ∧ (c'.calls i).prog = Prog.ofExcept r ∧
      Q r done db := by
  obtain ⟨c', hreach, hran⟩ : ∃ c', Reach eng idx F c c' ∧ Ran eng i c c' _ :=
    reach_exec idx [] halone (by simp)
  obtain ⟨done, db, _, _, _, hq⟩ := exec_sat law [] hsat (Index.Fresh.nil idx c.db) (by simp)
  have hprog := hran.prog
  rw [hi] at hprog
  exact ⟨c', _, _, db, hreach, hprog, hq⟩

/-- A call that returns when it runs alone returns in one of the interleavings. -/
theorem reach_returned (idx : Index σ W L K) {db : σ} {prog : ι → Prog σ W L E α} (i : ι)
    (hok : ((prog i).exec eng (.idle db [])).1.isOk = true) :
    ∃ c, Reach eng idx F (.start db prog) c ∧ ∃ a, (c.calls i).prog = .ret a := by
  have halone : (Config.start db prog : Config σ W L E α ι).Alone i := fun _ _ => ⟨rfl, rfl⟩
  obtain ⟨c, hreach, hran⟩ := reach_exec (F := F) idx [] halone (by simp)
  refine ⟨c, hreach, ?_⟩
  have hprog := hran.prog
  change _ = Prog.ofExcept ((prog i).exec eng (.idle db [])).1 at hprog
  cases hresult : ((prog i).exec eng (.idle db [])).1 with
  | error e =>
    rw [hresult] at hok
    cases hok
  | ok a =>
    rw [hresult] at hprog
    exact ⟨a, hprog⟩

end Alone

end Transact
