import Lyte.Lib.Program

/-
  Lyte.Lib.Interleaving — many calls at once, statement by statement.

  A configuration holds the committed rows and, for every call, what is left of
  its program, the rows of its open transaction and the row locks it holds.
  `Step` lets one call issue one statement: a SELECT sees the rows committed at
  that moment (and the call's own), a locked row is locked until its
  transaction ends, an INSERT waits while another open transaction holds a row
  with one of its unique keys, and a COMMIT publishes all rows at once.

  Reasoning is by rely and guarantee.  `Sat G Q p …` says of ONE call that,
  whatever commits allowed by the guarantee `G` happen between its statements,
  each of its own commits satisfies `G` and it ends in `Q`; commits by others
  never touch what the call has locked.  The soundness theorem

      reach_inv   if every call satisfies `Sat G Q`, every reachable
                  configuration satisfies `Inv`

  turns these local facts into facts about every interleaving.
-/

namespace Transact

/-! ## §1. Unique keys and guarded rows. -/

/-- The unique-index entries a row occupies, and the lock under which rows of
its kind are written. -/
structure Index (σ W L K : Type) where
  keys : W → List K
  used : σ → K → Prop
  guard : W → Option L

/-- The index describes the engine: writing a row occupies its keys and no
others, a stored row keeps them, and an occupied key is refused. -/
structure Index.Lawful {σ W L K E : Type} (idx : Index σ W L K) (eng : Engine σ W E) : Prop where
  used_write : ∀ db w k, idx.used (eng.write db w) k ↔ idx.used db k ∨ k ∈ idx.keys w
  keys_stored : ∀ w, idx.keys (eng.stored w) = idx.keys w
  rejects_used : ∀ db w k, k ∈ idx.keys w → idx.used db k → eng.rejects db w = true

section Keys

variable {σ W L K E : Type} {eng : Engine σ W E} {idx : Index σ W L K}

/-- The keys of a transaction's rows. -/
def Index.keysOf (idx : Index σ W L K) (rows : List W) : List K := rows.flatMap idx.keys

theorem used_foldl (h : idx.Lawful eng) (rows : List W) (db : σ) (k : K) :
    idx.used (rows.foldl eng.write db) k ↔ idx.used db k ∨ k ∈ idx.keysOf rows := by
  induction rows generalizing db with
  | nil => simp [Index.keysOf]
  | cons w rows ih =>
    rw [List.foldl_cons, ih, h.used_write]
    simp [Index.keysOf, or_assoc]

theorem used_view (h : idx.Lawful eng) (rows : List W) (db : σ) (k : K) :
    idx.used (eng.view db rows) k ↔ idx.used db k ∨ k ∈ idx.keysOf rows :=
  used_foldl h rows db k

theorem used_commit (h : idx.Lawful eng) (rows : List W) (db : σ) (k : K) :
    idx.used (eng.commit db rows) k ↔ idx.used db k ∨ k ∈ idx.keysOf rows := by
  have hk : idx.keysOf (rows.map eng.stored) = idx.keysOf rows := by
    simp [Index.keysOf, List.flatMap_map, h.keys_stored]
  rw [Engine.commit, used_foldl h, hk]

/-- Rows whose keys are unused in `db` and pairwise different. -/
structure Index.Fresh (idx : Index σ W L K) (db : σ) (rows : List W) : Prop where
  unused : ∀ k ∈ idx.keysOf rows, ¬ idx.used db k
  apart : rows.Pairwise (fun w w' => ∀ k ∈ idx.keys w, k ∉ idx.keys w')

theorem Index.Fresh.nil (idx : Index σ W L K) (db : σ) : idx.Fresh db [] :=
  ⟨by simp [Index.keysOf], List.Pairwise.nil⟩

/-- A row the engine accepts behind fresh rows leaves them fresh. -/
theorem Index.Fresh.append (h : idx.Lawful eng) {db : σ} {rows : List W} {w : W}
    (hf : idx.Fresh db rows) (hr : eng.rejects (eng.view db rows) w = false) :
    idx.Fresh db (rows ++ [w]) := by
  have hnew : ∀ k ∈ idx.keys w, ¬ idx.used (eng.view db rows) k := by
    intro k hk hu
    rw [h.rejects_used _ w k hk hu] at hr
    cases hr
  constructor
  · intro k hk
    simp only [Index.keysOf, List.flatMap_append, List.flatMap_cons, List.flatMap_nil,
      List.append_nil, List.mem_append] at hk
    rcases hk with hk | hk
    · exact hf.unused k hk
    · intro hu
      exact hnew k hk ((used_view h rows db k).mpr (.inl hu))
  · rw [List.pairwise_append]
    refine ⟨hf.apart, List.pairwise_singleton _ _, ?_⟩
    intro x hx y hy k hkx hky
    rw [List.mem_singleton.mp hy] at hky
    refine hnew k hky ((used_view h rows db k).mpr (.inr ?_))
    exact List.mem_flatMap.mpr ⟨x, hx, hkx⟩

/-- Rows that the engine accepts one after the other have fresh keys. -/
theorem fresh_of_accepted (h : idx.Lawful eng) {db : σ} {pre ws : List W} (hf : idx.Fresh db pre)
    (ha : ∀ mid w post, ws = mid ++ w :: post → eng.rejects (eng.view db (pre ++ mid)) w = false) :
    idx.Fresh db (pre ++ ws) := by
  induction ws generalizing pre with
  | nil => rwa [List.append_nil]
  | cons w ws ih =>
    have hw : eng.rejects (eng.view db pre) w = false := by
      have hfirst := ha [] w ws rfl
      rwa [List.append_nil] at hfirst
    have hrest := ih (hf.append h hw) (fun mid x post hx => by
      have hacc := ha (w :: mid) x post (by rw [hx]; rfl)
      rwa [List.append_cons] at hacc)
    rwa [List.append_assoc] at hrest

end Keys

/-! ## §2. Configurations and steps. -/

section Machine

variable {σ W L K E α ι : Type}

/-- A call in progress: what is left of it and its open transaction. -/
structure Running (σ W L E α : Type) where
  prog : Prog σ W L E α
  pending : List W := []
  held : List L := []

/-- One COMMIT that took effect, with the committed rows it found. -/
structure CommitEvent (σ W ι : Type) where
  who : ι
  before : σ
  rows : List W

/-- The committed rows, the calls, and the history of commits. -/
structure Config (σ W L E α ι : Type) where
  db : σ
  calls : ι → Running σ W L E α
  log : List (CommitEvent σ W ι)

/-- The commits of one call, oldest first. -/
def commitsOf [DecidableEq ι] (log : List (CommitEvent σ W ι)) (i : ι) : List (σ × List W) :=
  (log.filter (fun c => c.who = i)).map (fun c => (c.before, c.rows))

/-- All calls at their start over the committed rows `db`. -/
def Config.start (db : σ) (prog : ι → Prog σ W L E α) : Config σ W L E α ι :=
  ⟨db, fun i => ⟨prog i, [], []⟩, []⟩

/-- Replace what is left of call `i`. -/
def Config.put [DecidableEq ι] (c : Config σ W L E α ι) (i : ι) (r : Running σ W L E α) :
    Config σ W L E α ι :=
  { c with calls := fun j => if j = i then r else c.calls j }

variable [DecidableEq ι] (eng : Engine σ W E) (idx : Index σ W L K) (F : E → Prop)

/-- **One statement of call `i`.**  `F` are the exceptions a statement may raise
from outside (a lost connection, a deadlock victim …). -/
inductive Step (i : ι) : Config σ W L E α ι → Config σ W L E α ι → Prop
  | select {c k h} : (c.calls i).prog = .stmt .select k h →
      Step i c (c.put i ⟨k (eng.view c.db (c.calls i).pending),
        (c.calls i).pending, (c.calls i).held⟩)
  | lock {c row k h} : (c.calls i).prog = .stmt (.lock row) k h →
      (∀ j, j ≠ i → ∀ l ∈ (row (eng.view c.db (c.calls i).pending)).toList,
        l ∉ (c.calls j).held) →
      Step i c (c.put i ⟨k (eng.view c.db (c.calls i).pending), (c.calls i).pending,
        (row (eng.view c.db (c.calls i).pending)).toList ++ (c.calls i).held⟩)
  | insert {c w k h} : (c.calls i).prog = .stmt (.insert w) k h →
      eng.rejects (eng.view c.db (c.calls i).pending) w = false →
      (∀ j, j ≠ i → ∀ x ∈ idx.keys w, x ∉ idx.keysOf (c.calls j).pending) →
      Step i c (c.put i ⟨k (eng.view c.db (c.calls i).pending),
        (c.calls i).pending ++ [w], (c.calls i).held⟩)
  | refuse {c w k h} : (c.calls i).prog = .stmt (.insert w) k h →
      eng.rejects (eng.view c.db (c.calls i).pending) w = true →
      Step i c (c.put i ⟨h eng.integrity, [], []⟩)
  | commit {c k h} : (c.calls i).prog = .commit k h →
      Step i c ⟨eng.commit c.db (c.calls i).pending, (c.put i ⟨k, [], []⟩).calls,
        c.log ++ [⟨i, c.db, (c.calls i).pending⟩]⟩
  | rollback {c k} : (c.calls i).prog = .rollback k →
      Step i c (c.put i ⟨k, [], []⟩)
  | stmtFault {c s k h e} : (c.calls i).prog = .stmt s k h → F e →
      Step i c (c.put i ⟨h e, [], []⟩)
  | commitFault {c k h e} : (c.calls i).prog = .commit k h → F e →
      Step i c (c.put i ⟨h e, [], []⟩)

/-- Everything that can happen from `c`, in any order of steps. -/
inductive Reach : Config σ W L E α ι → Config σ W L E α ι → Prop
  | refl {c} : Reach c c
  | step {c d e i} : Reach c d → Step eng idx F i d e → Reach c e

theorem Reach.trans {a b c : Config σ W L E α ι} (h : Reach eng idx F a b)
    (h' : Reach eng idx F b c) : Reach eng idx F a c := by
  induction h' with
  | refl => exact h
  | step _ hs ih => exact .step ih hs

/-! ## §3. Rely and guarantee. -/

/-- What the commits of other calls may do between two statements of a call
that holds the locks `held`. -/
inductive Env (G : σ → List W → Prop) (held : List L) : σ → σ → Prop
  | refl {db} : Env G held db db
  | commit {db db' rows} : Env G held db db' → G db' rows → idx.Fresh db' rows →
      (∀ w ∈ rows, ∀ l, idx.guard w = some l → l ∉ held) →
      Env G held db (eng.commit db' rows)

theorem Env.trans {G : σ → List W → Prop} {held : List L} {a b c : σ}
    (h₁ : Env eng idx G held a b) (h₂ : Env eng idx G held b c) : Env eng idx G held a c := by
  induction h₂ with
  | refl => exact h₁
  | commit _ hg hf hl ih => exact .commit ih hg hf hl

/-- Fewer locks held, more interference. -/
theorem Env.mono {G : σ → List W → Prop} {held held' : List L} {a b : σ}
    (hsub : ∀ l ∈ held', l ∈ held) (h : Env eng idx G held a b) : Env eng idx G held' a b := by
  induction h with
  | refl => exact .refl
  | commit _ hg hf hl ih =>
    exact .commit ih hg hf (fun w hw l hg' hl' => hl w hw l hg' (hsub l hl'))

/-- **The contract of one call**: at every statement, whatever happened since
the one before. -/
def Sat (G : σ → List W → Prop) (Q : Except E α → List (σ × List W) → σ → Prop) :
    Prog σ W L E α → σ → List W → List L → List (σ × List W) → Prop
  | .ret a, db, pending, held, done =>
      pending = [] ∧ held = [] ∧ ∀ db', Env eng idx G [] db db' → Q (.ok a) done db'
  | .raise e, db, pending, held, done =>
      pending = [] ∧ held = [] ∧ ∀ db', Env eng idx G [] db db' → Q (.error e) done db'
  | .stmt s k h, db, pending, held, done =>
      ∀ db', Env eng idx G held db db' →
        (match s with
          | .select => Sat G Q (k (eng.view db' pending)) db' pending held done
          | .lock row => Sat G Q (k (eng.view db' pending)) db' pending
              ((row (eng.view db' pending)).toList ++ held) done
          | .insert w =>
              (∀ l, idx.guard w = some l → l ∈ held) ∧
              (eng.rejects (eng.view db' pending) w = false →
                Sat G Q (k (eng.view db' pending)) db' (pending ++ [w]) held done) ∧
              (eng.rejects (eng.view db' pending) w = true →
                Sat G Q (h eng.integrity) db' [] [] done)) ∧
        (∀ e, F e → Sat G Q (h e) db' [] [] done)
  | .commit k h, db, pending, held, done =>
      ∀ db', Env eng idx G held db db' → idx.Fresh db' pending →
        (G db' pending ∧
          Sat G Q k (eng.commit db' pending) [] [] (done ++ [(db', pending)])) ∧
        (∀ e, F e → Sat G Q (h e) db' [] [] done)
  | .rollback k, db, _, held, done =>
      ∀ db', Env eng idx G held db db' → Sat G Q k db' [] [] done

variable {eng idx F}
variable {G : σ → List W → Prop} {Q : Except E α → List (σ × List W) → σ → Prop}

/-- A contract survives the commits of others. -/
theorem Sat.env {p : Prog σ W L E α} {db db' : σ} {pending : List W} {held : List L}
    {done : List (σ × List W)} (h : Sat eng idx F G Q p db pending held done)
    (henv : Env eng idx G held db db') : Sat eng idx F G Q p db' pending held done := by
  cases p with
  | ret a =>
    obtain ⟨hp, hh, hq⟩ := h
    exact ⟨hp, hh, fun d hd => hq d ((henv.mono eng idx (by simp)).trans eng idx hd)⟩
  | raise e =>
    obtain ⟨hp, hh, hq⟩ := h
    exact ⟨hp, hh, fun d hd => hq d ((henv.mono eng idx (by simp)).trans eng idx hd)⟩
  | stmt s k hd =>
    intro d hdd
    exact h d (henv.trans eng idx hdd)
  | commit k hd =>
    intro d hdd hf
    exact h d (henv.trans eng idx hdd) hf
  | rollback k =>
    intro d hdd
    exact h d (henv.trans eng idx hdd)

/-! ## §4. Soundness. -/

/-- What holds in every reachable configuration of calls that keep their
contracts. -/
structure Inv (eng : Engine σ W E) (idx : Index σ W L K) (F : E → Prop)
    (G : σ → List W → Prop) (Q : ι → Except E α → List (σ × List W) → σ → Prop)
    (db₀ : σ) (c : Config σ W L E α ι) : Prop where
  fresh : ∀ i, idx.Fresh c.db (c.calls i).pending
  apart : ∀ i j, i ≠ j → ∀ k ∈ idx.keysOf (c.calls i).pending,
    k ∉ idx.keysOf (c.calls j).pending
  locks : ∀ i j, i ≠ j → ∀ l ∈ (c.calls i).held, l ∉ (c.calls j).held
  guarded : ∀ i, ∀ w ∈ (c.calls i).pending, ∀ l, idx.guard w = some l → l ∈ (c.calls i).held
  sat : ∀ i, Sat eng idx F G (Q i) (c.calls i).prog c.db (c.calls i).pending (c.calls i).held
    (commitsOf c.log i)
  path : Env eng idx G [] db₀ c.db
  logOk : ∀ e ∈ c.log, G e.before e.rows ∧ idx.Fresh e.before e.rows
  logOrder : c.log.Pairwise (fun e e' => ∀ k ∈ idx.keysOf e.rows, idx.used e'.before k)
  logUsed : ∀ k, idx.used c.db k ↔ idx.used db₀ k ∨ ∃ e ∈ c.log, k ∈ idx.keysOf e.rows
  logFrom : ∀ e ∈ c.log, Env eng idx G [] db₀ e.before
  logReplay : c.db = c.log.foldl (fun db e => eng.commit db e.rows) db₀
  logPath : ∀ e ∈ c.log, Env eng idx G [] (eng.commit e.before e.rows) c.db

omit [DecidableEq ι] in
theorem keysOf_append_singleton (idx : Index σ W L K) (rows : List W) (w : W) (k : K) :
    k ∈ idx.keysOf (rows ++ [w]) ↔ k ∈ idx.keysOf rows ∨ k ∈ idx.keys w := by
  simp [Index.keysOf]

@[simp] theorem put_db (c : Config σ W L E α ι) (i : ι) (r : Running σ W L E α) :
    (c.put i r).db = c.db := rfl

@[simp] theorem put_log (c : Config σ W L E α ι) (i : ι) (r : Running σ W L E α) :
    (c.put i r).log = c.log := rfl

@[simp] theorem put_self (c : Config σ W L E α ι) (i : ι) (r : Running σ W L E α) :
    (c.put i r).calls i = r := by simp [Config.put]

theorem put_other (c : Config σ W L E α ι) {i j : ι} (r : Running σ W L E α) (h : j ≠ i) :
    (c.put i r).calls j = c.calls j := by simp [Config.put, h]

@[simp] theorem commitsOf_append_self (log : List (CommitEvent σ W ι)) (i : ι) (db : σ)
    (rows : List W) : commitsOf (log ++ [⟨i, db, rows⟩]) i = commitsOf log i ++ [(db, rows)] := by
  simp [commitsOf]

theorem commitsOf_append_other (log : List (CommitEvent σ W ι)) {i j : ι} (db : σ)
    (rows : List W) (h : i ≠ j) : commitsOf (log ++ [⟨i, db, rows⟩]) j = commitsOf log j := by
  simp [commitsOf, h]

/-- A step that commits nothing: it only has to keep the facts about call `i`. -/
theorem Inv.put {Q : ι → Except E α → List (σ × List W) → σ → Prop} {db₀ : σ}
    {c : Config σ W L E α ι} (hinv : Inv eng idx F G Q db₀ c) (i : ι) (r : Running σ W L E α)
    (hfresh : idx.Fresh c.db r.pending)
    (hapart : ∀ j, j ≠ i → ∀ k ∈ idx.keysOf r.pending, k ∉ idx.keysOf (c.calls j).pending)
    (hlocks : ∀ j, j ≠ i → ∀ l ∈ r.held, l ∉ (c.calls j).held)
    (hguard : ∀ w ∈ r.pending, ∀ l, idx.guard w = some l → l ∈ r.held)
    (hsat : Sat eng idx F G (Q i) r.prog c.db r.pending r.held (commitsOf c.log i)) :
    Inv eng idx F G Q db₀ (c.put i r) where
  fresh j := by
    by_cases hj : j = i
    · subst hj; simpa using hfresh
    · rw [put_other c r hj]; exact hinv.fresh j
  apart a b hab k hka hkb := by
    by_cases ha : a = i
    · subst ha
      rw [put_self] at hka
      rw [put_other c r (Ne.symm hab)] at hkb
      exact hapart b (Ne.symm hab) k hka hkb
    · rw [put_other c r ha] at hka
      by_cases hb : b = i
      · subst hb
        rw [put_self] at hkb
        exact hapart a ha k hkb hka
      · rw [put_other c r hb] at hkb
        exact hinv.apart a b hab k hka hkb
  locks a b hab l hla hlb := by
    by_cases ha : a = i
    · subst ha
      rw [put_self] at hla
      rw [put_other c r (Ne.symm hab)] at hlb
      exact hlocks b (Ne.symm hab) l hla hlb
    · rw [put_other c r ha] at hla
      by_cases hb : b = i
      · subst hb
        rw [put_self] at hlb
        exact hlocks a ha l hlb hla
      · rw [put_other c r hb] at hlb
        exact hinv.locks a b hab l hla hlb
  guarded j := by
    by_cases hj : j = i
    · subst hj; simpa using hguard
    · rw [put_other c r hj]; exact hinv.guarded j
  sat j := by
    by_cases hj : j = i
    · subst hj; simpa using hsat
    · rw [put_other c r hj]; exact hinv.sat j
  path := hinv.path
  logOk := hinv.logOk
  logOrder := hinv.logOrder
  logUsed := hinv.logUsed
  logFrom := hinv.logFrom
  logReplay := hinv.logReplay
  logPath := hinv.logPath

/-- A call whose transaction was aborted goes on with no rows and no locks. -/
theorem Inv.abort {Q : ι → Except E α → List (σ × List W) → σ → Prop} {db₀ : σ}
    {c : Config σ W L E α ι} (hinv : Inv eng idx F G Q db₀ c) (i : ι) (p : Prog σ W L E α)
    (hsat : Sat eng idx F G (Q i) p c.db [] [] (commitsOf c.log i)) :
    Inv eng idx F G Q db₀ (c.put i ⟨p, [], []⟩) :=
  hinv.put i _ (Index.Fresh.nil idx c.db) (by simp [Index.keysOf]) (by simp) (by simp) hsat

/-- **Every step keeps the invariant.** -/
theorem Inv.step (law : idx.Lawful eng) {Q : ι → Except E α → List (σ × List W) → σ → Prop}
    {db₀ : σ} {c c' : Config σ W L E α ι} {i : ι} (hinv : Inv eng idx F G Q db₀ c)
    (hstep : Step eng idx F i c c') : Inv eng idx F G Q db₀ c' := by
  have hsat := hinv.sat i
  cases hstep with
  | select hp =>
    rw [hp] at hsat
    exact hinv.put i _ (hinv.fresh i) (fun j hj => hinv.apart i j (Ne.symm hj))
      (fun j hj => hinv.locks i j (Ne.symm hj)) (hinv.guarded i) (hsat _ .refl).1
  | lock hp hfree =>
    rw [hp] at hsat
    refine hinv.put i _ (hinv.fresh i) (fun j hj => hinv.apart i j (Ne.symm hj)) ?_ ?_
      (hsat _ .refl).1
    · intro j hj l hl
      rcases List.mem_append.mp hl with hl | hl
      · exact hfree j hj l hl
      · exact hinv.locks i j (Ne.symm hj) l hl
    · intro w hw l hl
      exact List.mem_append_right _ (hinv.guarded i w hw l hl)
  | insert hp hr hclash =>
    rw [hp] at hsat
    obtain ⟨hguard, hok, _⟩ := (hsat _ .refl).1
    refine hinv.put i _ ((hinv.fresh i).append law hr) ?_
      (fun j hj => hinv.locks i j (Ne.symm hj)) ?_ (hok hr)
    · intro j hj k hk
      rcases (keysOf_append_singleton idx _ _ k).mp hk with hk | hk
      · exact hinv.apart i j (Ne.symm hj) k hk
      · exact hclash j hj k hk
    · intro x hx l hl
      rcases List.mem_append.mp hx with hx | hx
      · exact hinv.guarded i x hx l hl
      · rw [List.mem_singleton.mp hx] at hl
        exact hguard l hl
  | refuse hp hr =>
    rw [hp] at hsat
    exact hinv.abort i _ ((hsat _ .refl).1.2.2 hr)
  | rollback hp =>
    rw [hp] at hsat
    exact hinv.abort i _ (hsat _ .refl)
  | stmtFault hp he =>
    rw [hp] at hsat
    exact hinv.abort i _ ((hsat _ .refl).2 _ he)
  | commitFault hp he =>
    rw [hp] at hsat
    exact hinv.abort i _ ((hsat _ .refl (hinv.fresh i)).2 _ he)
  | @commit k h hp =>
    rw [hp] at hsat
    obtain ⟨hG, hk⟩ := (hsat _ .refl (hinv.fresh i)).1
    -- for every other call this commit is interference it has allowed for
    have henv : ∀ j, j ≠ i → Env eng idx G (c.calls j).held c.db
        (eng.commit c.db (c.calls i).pending) := fun j hj =>
      .commit .refl hG (hinv.fresh i) (fun w hw l hl =>
        hinv.locks i j (Ne.symm hj) l (hinv.guarded i w hw l hl))
    have hother : ∀ j, j ≠ i → (c.put i ⟨k, [], []⟩).calls j = c.calls j :=
      fun j hj => put_other c _ hj
    refine
      { fresh := ?_, apart := ?_, locks := ?_, guarded := ?_, sat := ?_, path := ?_,
        logOk := ?_, logOrder := ?_, logUsed := ?_, logFrom := ?_, logReplay := ?_,
        logPath := ?_ }
    · intro j
      by_cases hj : j = i
      · subst hj
        simpa using Index.Fresh.nil idx _
      · simp only [hother j hj]
        refine ⟨fun k hk hu => ?_, (hinv.fresh j).apart⟩
        rcases (used_commit law _ _ k).mp hu with hu | hu
        · exact (hinv.fresh j).unused k hk hu
        · exact hinv.apart i j (Ne.symm hj) k hu hk
    · intro a b hab
      by_cases ha : a = i
      · subst ha; simp [Index.keysOf]
      · by_cases hb : b = i
        · subst hb; simp [Index.keysOf]
        · simp only [hother a ha, hother b hb]
          exact hinv.apart a b hab
    · intro a b hab
      by_cases ha : a = i
      · subst ha; simp
      · by_cases hb : b = i
        · subst hb; simp
        · simp only [hother a ha, hother b hb]
          exact hinv.locks a b hab
    · intro j
      by_cases hj : j = i
      · subst hj; simp
      · simp only [hother j hj]
        exact hinv.guarded j
    · intro j
      by_cases hj : j = i
      · subst hj
        simpa using hk
      · simp only [hother j hj, commitsOf_append_other _ _ _ (Ne.symm hj)]
        exact (hinv.sat j).env (henv j hj)
    · exact .commit hinv.path hG (hinv.fresh i) (by simp)
    · intro e he
      rcases List.mem_append.mp he with he | he
      · exact hinv.logOk e he
      · rw [List.mem_singleton.mp he]
        exact ⟨hG, hinv.fresh i⟩
    · rw [List.pairwise_append]
      refine ⟨hinv.logOrder, List.pairwise_singleton _ _, ?_⟩
      intro e he e' he' k hk
      rw [List.mem_singleton.mp he']
      exact (hinv.logUsed k).mpr (.inr ⟨e, he, hk⟩)
    · intro k
      simp only [used_commit law, hinv.logUsed, List.mem_append, List.mem_singleton]
      constructor
      · rintro ((h | ⟨e, he, hk⟩) | h)
        · exact .inl h
        · exact .inr ⟨e, .inl he, hk⟩
        · exact .inr ⟨_, .inr rfl, h⟩
      · rintro (h | ⟨e, he | rfl, hk⟩)
        · exact .inl (.inl h)
        · exact .inl (.inr ⟨e, he, hk⟩)
        · exact .inr hk
    · intro e he
      rcases List.mem_append.mp he with he | he
      · exact hinv.logFrom e he
      · rw [List.mem_singleton.mp he]
        exact hinv.path
    · rw [List.foldl_append, ← hinv.logReplay]
      rfl
    · intro e he
      rcases List.mem_append.mp he with he | he
      · exact .commit (hinv.logPath e he) hG (hinv.fresh i) (by simp)
      · rw [List.mem_singleton.mp he]
        exact .refl

/-- Nor does any number of steps break it. -/
theorem Inv.reach (law : idx.Lawful eng) {Q : ι → Except E α → List (σ × List W) → σ → Prop}
    {db₀ : σ} {c c' : Config σ W L E α ι} (hinv : Inv eng idx F G Q db₀ c)
    (hreach : Reach eng idx F c c') : Inv eng idx F G Q db₀ c' := by
  induction hreach with
  | refl => exact hinv
  | step _ hs ih => exact ih.step law hs

/-- **SOUNDNESS**: calls that keep their contracts one by one keep the
invariant together, in every interleaving of their statements. -/
theorem reach_inv (law : idx.Lawful eng) {Q : ι → Except E α → List (σ × List W) → σ → Prop}
    {db₀ : σ} {prog : ι → Prog σ W L E α}
    (hsat : ∀ i, Sat eng idx F G (Q i) (prog i) db₀ [] [] [])
    {c : Config σ W L E α ι} (hreach : Reach eng idx F (.start db₀ prog) c) :
    Inv eng idx F G Q db₀ c := by
  have hstart : Inv eng idx F G Q db₀ (Config.start db₀ prog) :=
    { fresh := fun _ => Index.Fresh.nil idx _
      apart := by simp [Config.start, Index.keysOf]
      locks := by simp [Config.start]
      guarded := by simp [Config.start]
      sat := fun i => by simpa [Config.start, commitsOf] using hsat i
      path := .refl
      logOk := by simp [Config.start]
      logOrder := by simp [Config.start]
      logUsed := by simp [Config.start]
      logFrom := by simp [Config.start]
      logReplay := rfl
      logPath := by simp [Config.start] }
  exact hstart.reach law hreach

/-- **A unique key is committed at most once.** -/
theorem Inv.keys_apart {Q : ι → Except E α → List (σ × List W) → σ → Prop} {db₀ : σ}
    {c : Config σ W L E α ι} (hinv : Inv eng idx F G Q db₀ c) :
    c.log.Pairwise (fun e e' => ∀ k ∈ idx.keysOf e.rows, k ∉ idx.keysOf e'.rows) := by
  refine hinv.logOrder.imp_of_mem ?_
  intro e e' _ he' hused k hk hk'
  exact (hinv.logOk e' he').2.unused k hk' (hused k hk)

end Machine

end Transact
