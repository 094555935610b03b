import Lyte.Lib.Contract

/-
  Lyte.Lib.Schedule — running an interleaving.

  `Step` says what can happen next; here is one way for it to happen: `advance`
  lets a chosen call issue its next statement, and does nothing where the call
  has to wait or has ended.  A schedule is a list of calls, and

      reach_run   every schedule is an interleaving,

  so that a run of some calls can be evaluated, and what it ends in is reachable.
-/

namespace Transact

variable {σ W L K E α ι : Type} [DecidableEq ι] [DecidableEq L] [DecidableEq K]
variable (eng : Engine σ W E) (idx : Index σ W L K) (all : List ι)

/-- No other call holds one of the locks. -/
def Config.lockFree (c : Config σ W L E α ι) (i : ι) (ls : List L) : Bool :=
  all.all (fun j => j == i || ls.all (fun l => !(c.calls j).held.contains l))

/-- No other open transaction has written one of the keys. -/
def Config.keyFree (c : Config σ W L E α ι) (i : ι) (ks : List K) : Bool :=
  all.all (fun j => j == i || ks.all (fun k => !(idx.keysOf (c.calls j).pending).contains k))

/-- The next statement of call `i`, where it need not wait. -/
def advance (c : Config σ W L E α ι) (i : ι) : Config σ W L E α ι :=
  match (c.calls i).prog with
  | .ret _ => c
  | .raise _ => c
  | .stmt .select k _ =>
      c.put i ⟨k (eng.view c.db (c.calls i).pending), (c.calls i).pending, (c.calls i).held⟩
  | .stmt (.lock row) k _ =>
      if c.lockFree all i (row (eng.view c.db (c.calls i).pending)).toList then
        c.put i ⟨k (eng.view c.db (c.calls i).pending), (c.calls i).pending,
          (row (eng.view c.db (c.calls i).pending)).toList ++ (c.calls i).held⟩
      else c
  | .stmt (.insert w) k h =>
      if eng.rejects (eng.view c.db (c.calls i).pending) w then c.put i ⟨h eng.integrity, [], []⟩
      else if c.keyFree idx all i (idx.keys w) then
        c.put i ⟨k (eng.view c.db (c.calls i).pending), (c.calls i).pending ++ [w],
          (c.calls i).held⟩
      else c
  | .commit k _ =>
      ⟨eng.commit c.db (c.calls i).pending, (c.put i ⟨k, [], []⟩).calls,
        c.log ++ [⟨i, c.db, (c.calls i).pending⟩]⟩
  | .rollback k => c.put i ⟨k, [], []⟩

/-- The calls take turns as the schedule says. -/
def run (schedule : List ι) (c : Config σ W L E α ι) : Config σ W L E α ι :=
  schedule.foldl (advance eng idx all) c

variable {eng idx all}

omit [DecidableEq K] in
theorem Config.lockFree_other {c : Config σ W L E α ι} {i : ι} {ls : List L}
    (hall : ∀ j, j ∈ all) (h : c.lockFree all i ls = true) {j : ι} (hj : j ≠ i) {l : L}
    (hl : l ∈ ls) : l ∉ (c.calls j).held := by
  have hj' := List.all_eq_true.mp h j (hall j)
  have hne : (j == i) = false := by simpa using hj
  rw [hne, Bool.false_or] at hj'
  simpa using List.all_eq_true.mp hj' l hl

omit [DecidableEq L] in
theorem Config.keyFree_other {c : Config σ W L E α ι} {i : ι} {ks : List K}
    (hall : ∀ j, j ∈ all) (h : c.keyFree idx all i ks = true) {j : ι} (hj : j ≠ i) {k : K}
    (hk : k ∈ ks) : k ∉ idx.keysOf (c.calls j).pending := by
  have hj' := List.all_eq_true.mp h j (hall j)
  have hne : (j == i) = false := by simpa using hj
  rw [hne, Bool.false_or] at hj'
  simpa using List.all_eq_true.mp hj' k hk

/-- One turn is one step, or none. -/
theorem reach_advance (F : E → Prop) (hall : ∀ j, j ∈ all) (c : Config σ W L E α ι) (i : ι) :
    Reach eng idx F c (advance eng idx all c i) := by
  cases hp : (c.calls i).prog with
  | ret a =>
    simp only [advance, hp]
    exact .refl
  | raise e =>
    simp only [advance, hp]
    exact .refl
  | rollback k =>
    simp only [advance, hp]
    exact .step .refl (.rollback hp)
  | commit k h =>
    simp only [advance, hp]
    exact .step .refl (.commit hp)
  | stmt s k h =>
    cases s with
    | select =>
      simp only [advance, hp]
      exact .step .refl (.select hp)
    | lock row =>
      simp only [advance, hp]
      by_cases hfree : c.lockFree all i (row (eng.view c.db (c.calls i).pending)).toList = true
      · rw [if_pos hfree]
        exact .step .refl (.lock hp (fun j hj l hl => Config.lockFree_other hall hfree hj hl))
      · rw [if_neg hfree]
        exact .refl
    | insert w =>
      simp only [advance, hp]
      by_cases hr : eng.rejects (eng.view c.db (c.calls i).pending) w = true
      · rw [if_pos hr]
        exact .step .refl (.refuse hp hr)
      · rw [if_neg hr]
        by_cases hfree : c.keyFree idx all i (idx.keys w) = true
        · rw [if_pos hfree]
          exact .step .refl (.insert hp (by simpa using hr)
            (fun j hj k hk => Config.keyFree_other hall hfree hj hk))
        · rw [if_neg hfree]
          exact .refl

/-- **Every schedule is an interleaving.** -/
theorem reach_run (F : E → Prop) (hall : ∀ j, j ∈ all) (schedule : List ι)
    (c : Config σ W L E α ι) : Reach eng idx F c (run eng idx all schedule c) := by
  induction schedule generalizing c with
  | nil => exact .refl
  | cons i schedule ih =>
    exact (reach_advance F hall c i).trans eng idx F (ih (advance eng idx all c i))

/-- A turn of one call leaves the others as they are. -/
theorem advance_other {c : Config σ W L E α ι} {i j : ι} (h : j ≠ i) :
    (advance eng idx all c i).calls j = c.calls j ∧
      ∀ e ∈ (advance eng idx all c i).log, e.who = j → e ∈ c.log := by
  have hput : ∀ r, (c.put i r).calls j = c.calls j := fun r => put_other c r h
  unfold advance
  split
  · exact ⟨rfl, fun e he _ => he⟩
  · exact ⟨rfl, fun e he _ => he⟩
  · exact ⟨hput _, fun e he _ => he⟩
  · split
    · exact ⟨hput _, fun e he _ => he⟩
    · exact ⟨rfl, fun e he _ => he⟩
  · split
    · exact ⟨hput _, fun e he _ => he⟩
    · split
      · exact ⟨hput _, fun e he _ => he⟩
      · exact ⟨rfl, fun e he _ => he⟩
  · refine ⟨hput _, fun e he hwho => ?_⟩
    rcases List.mem_append.mp he with he | he
    · exact he
    · rw [List.mem_singleton.mp he] at hwho
      exact absurd hwho.symm h
  · exact ⟨hput _, fun e he _ => he⟩

/-- **A call that the schedule leaves out has not begun.** -/
theorem run_unstarted {prog : ι → Prog σ W L E α} {j : ι} (schedule : List ι)
    {c : Config σ W L E α ι} (hc : c.Unstarted prog j) (hj : j ∉ schedule) :
    (run eng idx all schedule c).Unstarted prog j := by
  induction schedule generalizing c with
  | nil => exact hc
  | cons i schedule ih =>
    have hne : j ≠ i := fun h => hj (h ▸ List.mem_cons_self)
    obtain ⟨hcalls, hlog⟩ : (advance eng idx all c i).calls j = c.calls j ∧
        ∀ e ∈ (advance eng idx all c i).log, e.who = j → e ∈ c.log := advance_other hne
    refine ih ⟨hcalls.trans hc.whole, fun e he hwho => ?_⟩ (fun h => hj (List.mem_cons_of_mem _ h))
    exact hc.silent e (hlog e he hwho) hwho

/-! What a call has ended in, where it has ended. -/

def Prog.returned? : Prog σ W L E α → Option α
  | .ret a => some a
  | _ => none

def Prog.raised? : Prog σ W L E α → Option E
  | .raise e => some e
  | _ => none

omit [DecidableEq L] in
theorem Prog.eq_ret_of_returned? {p : Prog σ W L E α} {a : α} (h : p.returned? = some a) :
    p = .ret a := by
  cases p with
  | ret b =>
    cases h
    rfl
  | _ => cases h

omit [DecidableEq L] in
theorem Prog.eq_raise_of_raised? {p : Prog σ W L E α} {e : E} (h : p.raised? = some e) :
    p = .raise e := by
  cases p with
  | raise e' =>
    cases h
    rfl
  | _ => cases h

end Transact
