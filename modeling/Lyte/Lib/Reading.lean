import Lyte.Lib.Contract

/-
  Lyte.Lib.Reading — what a read session sees of others.

  A read session opens no transaction: between two of its SELECTs other calls
  commit.  `Body.after` runs its body on the committed rows that its statements
  saw, and `Observes` is `Reach` with these rows written down.

      Observes.session   in every interleaving a read session has come exactly
                         as far as the rows that it saw take it;
      Observes.moves     and these rows lie behind each other, moved on by what
                         the other calls committed.
-/

namespace Transact

variable {σ W L K E α β ι : Type}

/-! ## §1. Read-only bodies. -/

/-- A body that writes nothing. -/
def Body.ReadOnly : Body σ W L E α → Prop
  | .ret _ => True
  | .raise _ => True
  | .stmt .select k => ∀ v, (k v).ReadOnly
  | .stmt (.lock _) k => ∀ v, (k v).ReadOnly
  | .stmt (.insert _) _ => False

/-- What is left of a body whose statements saw these committed rows. -/
def Body.after : Body σ W L E α → List σ → Body σ W L E α
  | b, [] => b
  | .ret a, _ :: _ => .ret a
  | .raise e, _ :: _ => .raise e
  | .stmt _ k, v :: vs => (k v).after vs

@[simp] theorem Body.after_nil (b : Body σ W L E α) : b.after [] = b := by
  cases b <;> rfl

@[simp] theorem Body.after_ret (a : α) (vs : List σ) :
    (Body.ret a : Body σ W L E α).after vs = .ret a := by
  cases vs <;> rfl

@[simp] theorem Body.after_raise (e : E) (vs : List σ) :
    (Body.raise e : Body σ W L E α).after vs = .raise e := by
  cases vs <;> rfl

theorem Body.after_append (b : Body σ W L E α) (vs ws : List σ) :
    b.after (vs ++ ws) = (b.after vs).after ws := by
  induction vs generalizing b with
  | nil => rw [List.nil_append, Body.after_nil]
  | cons v vs ih =>
    cases b with
    | ret a => simp
    | raise e => simp
    | stmt s k => exact ih (k v)

theorem Body.after_map (b : Body σ W L E α) (f : α → β) (vs : List σ) :
    (b.bind (fun a => .ret (f a))).after vs = (b.after vs).bind (fun a => .ret (f a)) := by
  induction vs generalizing b with
  | nil => rw [Body.after_nil, Body.after_nil]
  | cons v vs ih =>
    cases b with
    | ret a => rfl
    | raise e => rfl
    | stmt s k => exact ih (k v)

/-- A body that has a SELECT before it. -/
def Body.Selects (b : Body σ W L E α) : Prop := ∃ k, b = .stmt .select k

/-- A body that has a SELECT … FOR UPDATE before it. -/
def Body.Locks (b : Body σ W L E α) : Prop := ∃ row k, b = .stmt (.lock row) k

/-- A body that has come to its end. -/
def Body.Done (b : Body σ W L E α) : Prop := (∃ a, b = .ret a) ∨ ∃ e, b = .raise e

theorem Body.Selects.bind {b : Body σ W L E α} (h : b.Selects) (f : α → Body σ W L E β) :
    (b.bind f).Selects := by
  obtain ⟨k, rfl⟩ := h
  exact ⟨_, rfl⟩

theorem Body.Locks.bind {b : Body σ W L E α} (h : b.Locks) (f : α → Body σ W L E β) :
    (b.bind f).Locks := by
  obtain ⟨row, k, rfl⟩ := h
  exact ⟨row, _, rfl⟩

theorem Body.Selects.not_done {b : Body σ W L E α} (h : b.Selects) : ¬ b.Done := by
  obtain ⟨k, rfl⟩ := h
  rintro (⟨a, ha⟩ | ⟨e, he⟩)
  · cases ha
  · cases he

theorem Body.Locks.not_done {b : Body σ W L E α} (h : b.Locks) : ¬ b.Done := by
  obtain ⟨row, k, rfl⟩ := h
  rintro (⟨a, ha⟩ | ⟨e, he⟩)
  · cases ha
  · cases he

theorem Body.ReadOnly.after {b : Body σ W L E α} (h : b.ReadOnly) (vs : List σ) :
    (b.after vs).ReadOnly := by
  induction vs generalizing b with
  | nil => rwa [Body.after_nil]
  | cons v vs ih =>
    cases b with
    | ret a => trivial
    | raise e => trivial
    | stmt s k =>
      cases s with
      | select => exact ih (h v)
      | lock row => exact ih (h v)
      | insert w => cases h

theorem Body.ReadOnly.bind {b : Body σ W L E α} {f : α → Body σ W L E β} (h : b.ReadOnly)
    (hf : ∀ a, (f a).ReadOnly) : (b.bind f).ReadOnly := by
  induction b with
  | ret a => exact hf a
  | raise e => trivial
  | stmt s k ih =>
    cases s with
    | select => exact fun v => ih v (h v)
    | lock row => exact fun v => ih v (h v)
    | insert w => cases h

theorem Body.ReadOnly.map {b : Body σ W L E α} (h : b.ReadOnly) (f : α → β) :
    (b.bind (fun a => .ret (f a))).ReadOnly :=
  h.bind (fun _ => trivial)

theorem Body.readOnly_select (q : σ → α) : (Body.select q : Body σ W L E α).ReadOnly :=
  fun _ => trivial

theorem Body.readOnly_selectForUpdate (row : σ → Option L) (q : σ → α) :
    (Body.selectForUpdate row q : Body σ W L E α).ReadOnly :=
  fun _ => trivial

theorem Body.readOnly_ofExcept (x : Except E α) :
    (Body.ofExcept x : Body σ W L E α).ReadOnly := by
  cases x <;> trivial

/-- A read session with a last computation of the client. -/
theorem readSession_map (b : Body σ W L E α) (f : α → β) :
    (readSession b).bind (fun a => .ret (f a)) = readSession (b.bind (fun a => .ret (f a))) := by
  induction b with
  | ret a => rfl
  | raise e => rfl
  | stmt s k ih =>
    show Prog.stmt s _ _ = Prog.stmt s _ _
    congr 1
    funext v
    exact ih v

theorem readSession_ne_ret (b : Body σ W L E α) (a : α) : readSession b ≠ .ret a := by
  cases b <;> simp [readSession]

theorem readSession_ne_raise (b : Body σ W L E α) (e : E) : readSession b ≠ .raise e := by
  cases b <;> simp [readSession]

/-- **A read session commits nothing.** -/
theorem Body.ReadOnly.sat_nothing {eng : Engine σ W E} {idx : Index σ W L K} {F : E → Prop}
    {G : σ → List W → Prop} {b : Body σ W L E α} (h : b.ReadOnly) (db : σ) (held : List L)
    (done : List (σ × List W)) :
    Transact.Sat eng idx F G (fun _ done' _ => done' = done) (readSession b) db [] held done := by
  have hraise : ∀ (db' : σ) (e : E), Transact.Sat eng idx F G (fun _ done' _ => done' = done)
      (.raise e : Prog σ W L E α) db' [] [] done := fun _ _ => ⟨rfl, rfl, fun _ _ => rfl⟩
  induction b generalizing db held with
  | ret a => exact fun _ _ => ⟨rfl, rfl, fun _ _ => rfl⟩
  | raise e => exact fun _ _ => ⟨rfl, rfl, fun _ _ => rfl⟩
  | stmt s k ih =>
    cases s with
    | select => exact fun db' _ => ⟨ih _ (h _) db' held, fun e _ => hraise db' e⟩
    | lock row => exact fun db' _ => ⟨ih _ (h _) db' _, fun e _ => hraise db' e⟩
    | insert w => cases h

/-- It keeps every guarantee. -/
theorem Body.ReadOnly.sat {eng : Engine σ W E} {idx : Index σ W L K} {F : E → Prop}
    {G : σ → List W → Prop} {b : Body σ W L E α} (h : b.ReadOnly) (db : σ) (held : List L)
    (done : List (σ × List W)) :
    Transact.Sat eng idx F G (fun _ _ _ => True) (readSession b) db [] held done :=
  (h.sat_nothing db held done).imp (fun _ _ _ _ => trivial)

/-! ## §2. Interleavings, as one call observes them. -/

section Observes

variable [DecidableEq ι] (eng : Engine σ W E) (idx : Index σ W L K) (F : E → Prop) (i : ι)

/-- What can happen from `c`, with the committed rows at each statement of
call `i`. -/
inductive Observes : Config σ W L E α ι → List σ → Config σ W L E α ι → Prop
  | refl {c} : Observes c [] c
  | other {c d e seen j} : Observes c seen d → j ≠ i → Step eng idx F j d e → Observes c seen e
  | own {c d e seen} : Observes c seen d → Step eng idx F i d e → Observes c (seen ++ [d.db]) e

variable {eng idx F i}

/-- Every interleaving is observed. -/
theorem Reach.observes {c d : Config σ W L E α ι} (h : Reach eng idx F c d) :
    ∃ seen, Observes eng idx F i c seen d := by
  induction h with
  | refl => exact ⟨[], .refl⟩
  | @step d e j _ hs ih =>
    obtain ⟨seen, ho⟩ := ih
    by_cases hj : j = i
    · subst hj
      exact ⟨_, .own ho hs⟩
    · exact ⟨_, .other ho hj hs⟩

/-- Another call that runs on its own is not observed. -/
theorem Observes.others {c d e : Config σ W L E α ι} {seen : List σ} {j : ι}
    (h : Observes eng idx F i c seen d) (hj : j ≠ i)
    (hs : Relation.ReflTransGen (Step eng idx F j) d e) : Observes eng idx F i c seen e := by
  induction hs with
  | refl => exact h
  | tail _ hs ih => exact .other ih hj hs

theorem Observes.reach {c d : Config σ W L E α ι} {seen : List σ}
    (h : Observes eng idx F i c seen d) : Reach eng idx F c d := by
  induction h with
  | refl => exact .refl
  | other _ _ hs ih => exact .step ih hs
  | own _ hs ih => exact .step ih hs

/-- The steps of others leave a call as it is. -/
theorem Step.calls_other {c d : Config σ W L E α ι} {j : ι} (h : Step eng idx F j c d)
    (hj : j ≠ i) : d.calls i = c.calls i := by
  cases h <;> exact put_other c _ (Ne.symm hj)

theorem Step.not_ret {c d : Config σ W L E α ι} {a : α} (hp : (c.calls i).prog = .ret a) :
    ¬ Step eng idx F i c d := by
  intro h
  cases h <;> simp_all

theorem Step.not_raise {c d : Config σ W L E α ι} {e : E} (hp : (c.calls i).prog = .raise e) :
    ¬ Step eng idx F i c d := by
  intro h
  cases h <;> simp_all

theorem Step.of_rollback {c d : Config σ W L E α ι} {k : Prog σ W L E α}
    (hp : (c.calls i).prog = .rollback k) (h : Step eng idx F i c d) :
    d.calls i = ⟨k, [], []⟩ := by
  cases h with
  | select h => rw [hp] at h; cases h
  | lock h _ => rw [hp] at h; cases h
  | insert h _ _ => rw [hp] at h; cases h
  | refuse h _ => rw [hp] at h; cases h
  | commit h => rw [hp] at h; cases h
  | rollback h =>
    rw [hp] at h
    cases h
    exact put_self c i _
  | stmtFault h _ => rw [hp] at h; cases h
  | commitFault h _ => rw [hp] at h; cases h

/-- A SELECT sees the committed rows, or raises from outside. -/
theorem Step.of_read {c d : Config σ W L E α ι} {st : Stmt σ W L} {k : σ → Prog σ W L E α}
    {onError : E → Prog σ W L E α} (hst : ∀ w, st ≠ .insert w)
    (hp : (c.calls i).prog = .stmt st k onError) (hpending : (c.calls i).pending = [])
    (h : Step eng idx F i c d) :
    (∃ held, d.calls i = ⟨k c.db, [], held⟩) ∨ ∃ e, F e ∧ d.calls i = ⟨onError e, [], []⟩ := by
  cases h with
  | select h =>
    rw [hp] at h
    cases h
    rw [put_self, hpending]
    exact .inl ⟨_, rfl⟩
  | lock h _ =>
    rw [hp] at h
    cases h
    rw [put_self, hpending]
    exact .inl ⟨_, rfl⟩
  | insert h _ _ =>
    rw [hp] at h
    cases h
    exact absurd rfl (hst _)
  | refuse h _ =>
    rw [hp] at h
    cases h
    exact absurd rfl (hst _)
  | commit h => rw [hp] at h; cases h
  | rollback h => rw [hp] at h; cases h
  | stmtFault h he =>
    rw [hp] at h
    cases h
    exact .inr ⟨_, he, put_self c i _⟩
  | commitFault h _ => rw [hp] at h; cases h

/-- How far a read session has come that saw these rows. -/
structure SessionAt (F : E → Prop) (b : Body σ W L E α) (seen : List σ) (r : Running σ W L E α) :
    Prop where
  pending : r.pending = []
  prog : r.prog = readSession (b.after seen) ∨ (∃ a, r.prog = .ret a ∧ b.after seen = .ret a) ∨
    ∃ e, r.prog = .raise e ∧ (b.after seen = .raise e ∨ F e)

/-- **One statement of a read session.** -/
theorem SessionAt.step {b : Body σ W L E α} (hb : b.ReadOnly) {seen : List σ}
    {c d : Config σ W L E α ι} (h : SessionAt F b seen (c.calls i)) (hs : Step eng idx F i c d) :
    SessionAt F b (seen ++ [c.db]) (d.calls i) := by
  have hafter := b.after_append seen [c.db]
  have hro := hb.after seen
  obtain ⟨hpending, hp | ⟨a, hp, _⟩ | ⟨e, hp, _⟩⟩ := h
  · cases hbs : b.after seen with
    | ret a =>
      rw [hbs] at hp hafter
      rw [Step.of_rollback hp hs]
      exact ⟨rfl, .inr (.inl ⟨a, rfl, hafter⟩)⟩
    | raise e =>
      rw [hbs] at hp hafter
      rw [Step.of_rollback hp hs]
      exact ⟨rfl, .inr (.inr ⟨e, rfl, .inl hafter⟩)⟩
    | stmt st k =>
      rw [hbs] at hp hafter hro
      have hst : ∀ w, st ≠ .insert w := by
        rintro w rfl
        cases hro
      rcases Step.of_read hst hp hpending hs with ⟨held, hd⟩ | ⟨e, he, hd⟩
      · rw [hd]
        refine ⟨rfl, .inl ?_⟩
        rw [hafter]
        show _ = readSession ((k c.db).after [])
        rw [Body.after_nil]
      · rw [hd]
        exact ⟨rfl, .inr (.inr ⟨e, rfl, .inr he⟩)⟩
  · exact absurd hs (Step.not_ret hp)
  · exact absurd hs (Step.not_raise hp)

/-- A read session goes on by a SELECT. -/
theorem Observes.select {c₀ c : Config σ W L E α ι} {seen : List σ} {b : Body σ W L E α}
    {held : List L} (h : Observes eng idx F i c₀ seen c) (hb : b.Selects)
    (hc : c.calls i = ⟨readSession b, [], held⟩) :
    Observes eng idx F i c₀ (seen ++ [c.db])
      (c.put i ⟨readSession (b.after [c.db]), [], held⟩) := by
  obtain ⟨k, rfl⟩ := hb
  have hstep : Step eng idx F i c _ :=
    .select (k := fun v => readSession (k v)) (h := .raise) (by rw [hc]; rfl)
  rw [hc] at hstep
  show Observes eng idx F i c₀ _ (c.put i ⟨readSession ((k c.db).after []), [], held⟩)
  rw [Body.after_nil]
  exact .own h hstep

/-- … and by a SELECT … FOR UPDATE while no other call has the row locked. -/
theorem Observes.lock {c₀ c : Config σ W L E α ι} {seen : List σ} {b : Body σ W L E α}
    {held : List L} (h : Observes eng idx F i c₀ seen c) (hb : b.Locks)
    (hc : c.calls i = ⟨readSession b, [], held⟩) (hfree : ∀ j, j ≠ i → (c.calls j).held = []) :
    ∃ held', Observes eng idx F i c₀ (seen ++ [c.db])
      (c.put i ⟨readSession (b.after [c.db]), [], held'⟩) := by
  obtain ⟨row, k, rfl⟩ := hb
  have hstep : Step eng idx F i c _ := .lock (k := fun v => readSession (k v)) (h := .raise)
    (show (c.calls i).prog = .stmt (.lock row) _ _ by rw [hc]; rfl)
    (fun j hj l _ => by rw [hfree j hj]; exact List.not_mem_nil)
  rw [hc] at hstep
  show ∃ held', Observes eng idx F i c₀ _ (c.put i ⟨readSession ((k c.db).after []), [], held'⟩)
  rw [Body.after_nil]
  exact ⟨_, .own h hstep⟩

/-- … and ends without a trace. -/
theorem Observes.close {c₀ c : Config σ W L E α ι} {seen : List σ} {a : α} {held : List L}
    (h : Observes eng idx F i c₀ seen c) (hc : c.calls i = ⟨readSession (.ret a), [], held⟩) :
    Observes eng idx F i c₀ (seen ++ [c.db]) (c.put i ⟨.ret a, [], []⟩) :=
  .own h (.rollback (by rw [hc]; rfl))

/-- **A read session has come as far as the rows that it saw take it.** -/
theorem Observes.session {b : Body σ W L E α} (hb : b.ReadOnly) {c d : Config σ W L E α ι}
    {seen : List σ} (hstart : c.calls i = ⟨readSession b, [], []⟩)
    (h : Observes eng idx F i c seen d) : SessionAt F b seen (d.calls i) := by
  induction h with
  | refl =>
    rw [hstart]
    refine ⟨rfl, .inl ?_⟩
    rw [Body.after_nil]
  | other _ hj hs ih =>
    rw [Step.calls_other hs hj]
    exact ih
  | own _ hs ih => exact ih.step hb hs

/-! ## §3. What happened between two statements. -/

variable {G : σ → List W → Prop} {Q : ι → Except E α → List (σ × List W) → σ → Prop} {db₀ : σ}

/-- One step of calls that keep their contracts is a commit within the
guarantee, or none. -/
theorem Inv.step_env {c d : Config σ W L E α ι} {j : ι} (hinv : Inv eng idx F G Q db₀ c)
    (h : Step eng idx F j c d) : Env eng idx G [] c.db d.db := by
  have hsat := hinv.sat j
  cases h with
  | commit hp =>
    rw [hp] at hsat
    exact .commit .refl (hsat _ .refl (hinv.fresh j)).1.1 (hinv.fresh j) (by simp)
  | select _ => exact .refl
  | lock _ _ => exact .refl
  | insert _ _ _ => exact .refl
  | refuse _ _ => exact .refl
  | rollback _ => exact .refl
  | stmtFault _ _ => exact .refl
  | commitFault _ _ => exact .refl

/-- Nor are many steps more than commits within the guarantee. -/
theorem Inv.reach_env (law : idx.Lawful eng) {c d : Config σ W L E α ι}
    (hinv : Inv eng idx F G Q db₀ c) (h : Reach eng idx F c d) : Env eng idx G [] c.db d.db := by
  induction h with
  | refl => exact .refl
  | step hreach hs ih => exact ih.trans eng idx ((hinv.reach law hreach).step_env hs)

/-- **The rows that a call saw lie behind each other**, moved on by commits
within the guarantee. -/
theorem Observes.moves (law : idx.Lawful eng) {c d : Config σ W L E α ι} {seen : List σ}
    (hinv : Inv eng idx F G Q db₀ c) (h : Observes eng idx F i c seen d) :
    Inv eng idx F G Q db₀ d ∧ (c.db :: seen).Pairwise (Env eng idx G []) ∧
      ∀ v ∈ c.db :: seen, Env eng idx G [] v d.db := by
  induction h with
  | refl =>
    refine ⟨hinv, List.pairwise_singleton _ _, ?_⟩
    intro v hv
    rw [List.mem_singleton.mp hv]
    exact .refl
  | other _ _ hs ih =>
    obtain ⟨hi, hpair, hlast⟩ := ih
    exact ⟨hi.step law hs, hpair, fun v hv => (hlast v hv).trans eng idx (hi.step_env hs)⟩
  | @own d' e' seen _ hs ih =>
    obtain ⟨hi, hpair, hlast⟩ := ih
    refine ⟨hi.step law hs, ?_, ?_⟩
    · rw [← List.cons_append, List.pairwise_append]
      refine ⟨hpair, List.pairwise_singleton _ _, ?_⟩
      intro a ha b hb
      rw [List.mem_singleton.mp hb]
      exact hlast a ha
    · intro v hv
      rw [← List.cons_append, List.mem_append, List.mem_singleton] at hv
      rcases hv with hv | rfl
      · exact (hlast v hv).trans eng idx (hi.step_env hs)
      · exact hi.step_env hs

end Observes

end Transact
