import Mathlib.Logic.Relation
import Mathlib.Order.Defs.PartialOrder
import Lyte.Lib.Interleaving

/-
  Lyte.Lib.LockOrder — calls that take their locks in one order never wait in a
  circle.

  A call WAITS FOR another while the row its next SELECT … FOR UPDATE found is
  locked by the other's open transaction.  `Prog.Ascends` says of ONE call that
  every row it asks for ranks above all rows its transaction has locked so far,
  whatever the database shows it and whichever of its statements raise.  Then

      reach_ascends   in every reachable configuration what is left of each
                      call still ascends from the locks the call holds;
      no_wait_cycle   so along the wait-for edges the rank of the row waited
                      for grows, and no call waits for itself through others.

  The rules for transaction bodies are in continuation form: a body is followed
  from the locks it starts with to the locks it ends with.
-/

namespace Transact

/-! ## §1. Programs that lock in one order. -/

section Ascending

variable {σ W L E α β R : Type}

/-- The rows a statement asks to lock. -/
def Stmt.wants : Stmt σ W L → σ → List L
  | .lock row, v => (row v).toList
  | _, _ => []

variable [Preorder R] (rank : L → R)

/-- Every row of `wanted` ranks above every row of `held`. -/
def Above (wanted held : List L) : Prop := ∀ l ∈ wanted, ∀ l' ∈ held, rank l' < rank l

theorem above_nil_left (held : List L) : Above rank [] held := by
  intro l hl
  cases hl

theorem above_nil_right (wanted : List L) : Above rank wanted [] := by
  intro l _ l' hl'
  cases hl'

/-- The body asks for its locks in ascending order, starting with `held`; where
it returns, `Q` holds of the result and the locks held then. -/
def Body.Ascends : Body σ W L E α → List L → (α → List L → Prop) → Prop
  | .ret a, held, Q => Q a held
  | .raise _, _, _ => True
  | .stmt s k, held, Q =>
      ∀ v, Above rank (s.wants v) held ∧ (k v).Ascends (s.wants v ++ held) Q

/-- The call asks for its locks in ascending order.  A transaction that ends, or
is aborted by what a statement raises, holds no lock any more; outside of
transactions none is held. -/
def Prog.Ascends : Prog σ W L E α → List L → Prop
  | .ret _, held => held = []
  | .raise _, held => held = []
  | .stmt s k h, held =>
      (∀ v, Above rank (s.wants v) held ∧ (k v).Ascends (s.wants v ++ held)) ∧
      ∀ e, (h e).Ascends []
  | .commit k h, _ => k.Ascends [] ∧ ∀ e, (h e).Ascends []
  | .rollback k, _ => k.Ascends []

variable {rank}

/-! ## §2. Bodies. -/

theorem Body.Ascends.imp {b : Body σ W L E α} {held : List L} {Q Q' : α → List L → Prop}
    (h : b.Ascends rank held Q) (himp : ∀ a held', Q a held' → Q' a held') :
    b.Ascends rank held Q' := by
  induction b generalizing held with
  | ret a => exact himp a held h
  | raise e => trivial
  | stmt s k ih =>
    intro v
    exact ⟨(h v).1, ih v (h v).2⟩

theorem Body.ascends_bind {b : Body σ W L E α} {f : α → Body σ W L E β} {held : List L}
    {Q : β → List L → Prop} (h : b.Ascends rank held (fun a held' => (f a).Ascends rank held' Q)) :
    (b.bind f).Ascends rank held Q := by
  induction b generalizing held with
  | ret a => exact h
  | raise e => trivial
  | stmt s k ih =>
    intro v
    exact ⟨(h v).1, ih v (h v).2⟩

theorem Body.ascends_select {q : σ → α} {held : List L} {Q : α → List L → Prop}
    (h : ∀ v, Q (q v) held) : (Body.select q : Body σ W L E α).Ascends rank held Q :=
  fun v => ⟨above_nil_left rank held, h v⟩

/-- A SELECT … FOR UPDATE ends with the row it found among the locks. -/
theorem Body.ascends_selectForUpdate {row : σ → Option L} {q : σ → α} {held : List L}
    {Q : α → List L → Prop}
    (h : ∀ v, Above rank (row v).toList held ∧ Q (q v) ((row v).toList ++ held)) :
    (Body.selectForUpdate row q : Body σ W L E α).Ascends rank held Q := h

theorem Body.ascends_flush {ws : List W} {held : List L} {Q : Unit → List L → Prop}
    (h : Q () held) : (Body.flush ws : Body σ W L E Unit).Ascends rank held Q := by
  induction ws with
  | nil => exact h
  | cons w ws ih => exact fun _ => ⟨above_nil_left rank held, ih⟩

theorem Body.ascends_ofExcept {x : Except E α} {held : List L} {Q : α → List L → Prop}
    (h : ∀ a, Q a held) : (Body.ofExcept x : Body σ W L E α).Ascends rank held Q := by
  cases x with
  | ok a => exact h a
  | error e => trivial

/-! ## §3. Calls. -/

theorem ascends_transaction {b : Body σ W L E α} {held : List L}
    (h : b.Ascends rank held (fun _ _ => True)) : (transaction b).Ascends rank held := by
  induction b generalizing held with
  | ret a => exact ⟨rfl, fun _ => rfl⟩
  | raise e => exact rfl
  | stmt s k ih => exact ⟨fun v => ⟨(h v).1, ih v (h v).2⟩, fun _ => rfl⟩

theorem ascends_readSession {b : Body σ W L E α} {held : List L}
    (h : b.Ascends rank held (fun _ _ => True)) : (readSession b).Ascends rank held := by
  induction b generalizing held with
  | ret a => exact rfl
  | raise e => exact rfl
  | stmt s k ih => exact ⟨fun v => ⟨(h v).1, ih v (h v).2⟩, fun _ => rfl⟩

theorem Prog.Ascends.bind {p : Prog σ W L E α} {f : α → Prog σ W L E β} {held : List L}
    (h : p.Ascends rank held) (hf : ∀ a, (f a).Ascends rank []) :
    (p.bind f).Ascends rank held := by
  induction p generalizing held with
  | ret a =>
    obtain rfl : held = [] := h
    exact hf a
  | raise e => exact h
  | stmt s k hd ihk ihh => exact ⟨fun v => ⟨(h.1 v).1, ihk v (h.1 v).2⟩, fun e => ihh e (h.2 e)⟩
  | commit k hd ihk ihh => exact ⟨ihk h.1, fun e => ihh e (h.2 e)⟩
  | rollback k ih => exact ih h

theorem Prog.Ascends.tryCatch {p : Prog σ W L E α} {f : E → Prog σ W L E α} {held : List L}
    (h : p.Ascends rank held) (hf : ∀ e, (f e).Ascends rank []) :
    (p.tryCatch f).Ascends rank held := by
  induction p generalizing held with
  | ret a => exact h
  | raise e =>
    obtain rfl : held = [] := h
    exact hf e
  | stmt s k hd ihk ihh => exact ⟨fun v => ⟨(h.1 v).1, ihk v (h.1 v).2⟩, fun e => ihh e (h.2 e)⟩
  | commit k hd ihk ihh => exact ⟨ihk h.1, fun e => ihh e (h.2 e)⟩
  | rollback k ih => exact ih h

theorem Prog.ascends_ofExcept (x : Except E α) :
    (Prog.ofExcept x : Prog σ W L E α).Ascends rank [] := by
  cases x <;> exact rfl

end Ascending

/-! ## §4. Waiting. -/

section Waiting

variable {σ W L K E α ι R : Type}

/-- Call `i` has issued a SELECT … FOR UPDATE whose row `l` is locked by the open
transaction of call `j`.  The row is the one found over the rows `db` that were
committed when the statement was issued, which may be some time ago. -/
def Config.WaitsOn (c : Config σ W L E α ι) (eng : Engine σ W E) (i : ι) (l : L) (j : ι) : Prop :=
  j ≠ i ∧ l ∈ (c.calls j).held ∧ ∃ row k h db, (c.calls i).prog = .stmt (.lock row) k h ∧
    row (eng.view db (c.calls i).pending) = some l

/-- **The wait-for graph.** -/
def Config.WaitsFor (c : Config σ W L E α ι) (eng : Engine σ W E) (i j : ι) : Prop :=
  ∃ l, c.WaitsOn eng i l j

variable [DecidableEq ι] {eng : Engine σ W E} {idx : Index σ W L K} {F : E → Prop}
  [Preorder R] {rank : L → R}

/-- What every reachable configuration keeps. -/
def Config.Ordered (rank : L → R) (c : Config σ W L E α ι) : Prop :=
  ∀ i, (c.calls i).prog.Ascends rank (c.calls i).held

omit [DecidableEq ι] in
/-- Replacing one call keeps the order when the new remainder ascends. -/
theorem Config.Ordered.put [DecidableEq ι] {c : Config σ W L E α ι} (h : c.Ordered rank) (i : ι)
    {r : Running σ W L E α} (hr : r.prog.Ascends rank r.held) : (c.put i r).Ordered rank := by
  intro j
  by_cases hj : j = i
  · subst hj
    rw [put_self]
    exact hr
  · rw [put_other c r hj]
    exact h j

/-- One statement of one call. -/
theorem Config.Ordered.step {c c' : Config σ W L E α ι} {i : ι} (h : c.Ordered rank)
    (hstep : Step eng idx F i c c') : c'.Ordered rank := by
  have hi := h i
  cases hstep with
  | select hp =>
    rw [hp] at hi
    exact h.put i (hi.1 _).2
  | lock hp _ =>
    rw [hp] at hi
    exact h.put i (hi.1 _).2
  | insert hp _ _ =>
    rw [hp] at hi
    exact h.put i (hi.1 (eng.view c.db (c.calls i).pending)).2
  | refuse hp _ =>
    rw [hp] at hi
    exact h.put i (hi.2 _)
  | rollback hp =>
    rw [hp] at hi
    exact h.put i hi
  | stmtFault hp _ =>
    rw [hp] at hi
    exact h.put i (hi.2 _)
  | commitFault hp _ =>
    rw [hp] at hi
    exact h.put i (hi.2 _)
  | commit hp =>
    rw [hp] at hi
    exact h.put i hi.1

/-- **Every run.** -/
theorem reach_ascends {c c' : Config σ W L E α ι} (h : c.Ordered rank)
    (hreach : Reach eng idx F c c') : c'.Ordered rank := by
  induction hreach with
  | refl => exact h
  | step _ hs ih => exact ih.step hs

omit [DecidableEq ι] in
theorem Config.Ordered.start {db : σ} {prog : ι → Prog σ W L E α}
    (h : ∀ i, (prog i).Ascends rank []) : (Config.start db prog).Ordered rank := h

omit [DecidableEq ι] in
/-- The row a call waits for ranks above all it has locked itself. -/
theorem Config.Ordered.above {c : Config σ W L E α ι} (h : c.Ordered rank) {i j : ι} {l : L}
    (hw : c.WaitsOn eng i l j) : ∀ l' ∈ (c.calls i).held, rank l' < rank l := by
  obtain ⟨_, _, row, k, hd, db, hp, hrow⟩ := hw
  have hi := h i
  rw [hp] at hi
  refine (hi.1 (eng.view db (c.calls i).pending)).1 l ?_
  show l ∈ (row _).toList
  rw [hrow]
  exact List.mem_singleton_self l

omit [DecidableEq ι] in
/-- Along wait-for edges the rank of what is waited for grows: the last call of
the chain holds a row that ranks above all the first one holds. -/
theorem Config.Ordered.chain {c : Config σ W L E α ι} (h : c.Ordered rank) {i j : ι}
    (hchain : Relation.TransGen (c.WaitsFor eng) i j) :
    ∃ l ∈ (c.calls j).held, ∀ l' ∈ (c.calls i).held, rank l' < rank l := by
  induction hchain with
  | single hedge =>
    obtain ⟨l, hw⟩ := hedge
    exact ⟨l, hw.2.1, h.above hw⟩
  | tail _ hedge ih =>
    obtain ⟨l, hl, hbelow⟩ := ih
    obtain ⟨m, hw⟩ := hedge
    have hlm : rank l < rank m := h.above hw l hl
    exact ⟨m, hw.2.1, fun l' hl' => lt_trans (hbelow l' hl') hlm⟩

omit [DecidableEq ι] in
/-- **No circle.** -/
theorem Config.Ordered.no_wait_cycle {c : Config σ W L E α ι} (h : c.Ordered rank) (i : ι) :
    ¬ Relation.TransGen (c.WaitsFor eng) i i := by
  intro hcycle
  obtain ⟨l, hl, hbelow⟩ := h.chain hcycle
  exact lt_irrefl (rank l) (hbelow l hl)

end Waiting

end Transact
