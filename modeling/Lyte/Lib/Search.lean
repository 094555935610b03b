import Mathlib.Data.List.Forall2
import Mathlib.Data.List.Induction

/-
  Lyte.Lib.Search — loops over candidates, where a test may raise.

  `firstOk f l` tries the candidates in order and stops at the first that passes
  or raises.  The three ways it ends are told apart by the candidates alone:

      firstOk_some_iff   it returns what the first passing candidate gives, with
                         all before it refused;
      firstOk_none_iff   it returns nothing, with all refused.

  `firstBest better l` is the first candidate that no other is better than
  (`firstBest_some`).
-/

namespace Search

variable {α β ε : Type}

/-- `for a in candidates: if (b := f(a)): return b`. -/
def firstOk (f : α → Except ε (Option β)) : List α → Except ε (Option β)
  | [] => .ok none
  | a :: as =>
      match f a with
      | .error e => .error e
      | .ok (some b) => .ok (some b)
      | .ok none => firstOk f as

variable {f : α → Except ε (Option β)}

theorem firstOk_none_iff {l : List α} : firstOk f l = .ok none ↔ ∀ a ∈ l, f a = .ok none := by
  induction l with
  | nil => simp [firstOk]
  | cons a as ih =>
    rw [List.forall_mem_cons]
    unfold firstOk
    cases h : f a with
    | error e => simp
    | ok b =>
      cases b with
      | some b => simp
      | none => simp [ih]

theorem firstOk_some_iff {l : List α} {b : β} : firstOk f l = .ok (some b) ↔
    ∃ before a after, l = before ++ a :: after ∧ (∀ x ∈ before, f x = .ok none) ∧
      f a = .ok (some b) := by
  induction l with
  | nil => simp [firstOk]
  | cons a as ih =>
    unfold firstOk
    constructor
    · intro h
      cases hf : f a with
      | error e =>
        rw [hf] at h
        cases h
      | ok r =>
        cases r with
        | some b' =>
          rw [hf] at h
          cases h
          exact ⟨[], a, as, rfl, by simp, hf⟩
        | none =>
          rw [hf] at h
          obtain ⟨before, a', after, hl, hbefore, ha'⟩ := ih.mp h
          refine ⟨a :: before, a', after, ?_, ?_, ha'⟩
          · rw [hl, List.cons_append]
          · rw [List.forall_mem_cons]
            exact ⟨hf, hbefore⟩
    · intro h
      obtain ⟨before, a', after, hl, hbefore, ha'⟩ := h
      cases before with
      | nil =>
        rw [List.nil_append, List.cons.injEq] at hl
        rw [hl.1, ha']
      | cons x before =>
        rw [List.cons_append, List.cons.injEq] at hl
        rw [List.forall_mem_cons] at hbefore
        rw [hl.1, hbefore.1]
        exact ih.mpr ⟨before, a', after, hl.2, hbefore.2, ha'⟩

/-! ## §2. Filters. -/

/-- `[a for a in l if keep(a)]`. -/
def keepOk (keep : α → Except ε Bool) : List α → Except ε (List α)
  | [] => .ok []
  | a :: as => do
      let kept ← keep a
      let rest ← keepOk keep as
      return if kept then a :: rest else rest

variable {keep : α → Except ε Bool}

/-- A filter that raises nowhere. -/
theorem keepOk_of_ok {l : List α} (g : α → Bool) (h : ∀ a ∈ l, keep a = .ok (g a)) :
    keepOk keep l = .ok (l.filter g) := by
  induction l with
  | nil => rfl
  | cons a as ih =>
    rw [List.forall_mem_cons] at h
    unfold keepOk
    rw [h.1, ih h.2, List.filter_cons]
    rfl

/-- What is kept raised nowhere. -/
theorem ok_of_keepOk {l kept : List α} (h : keepOk keep l = .ok kept) :
    ∀ a ∈ l, ∃ b, keep a = .ok b := by
  induction l generalizing kept with
  | nil => simp
  | cons a as ih =>
    rw [List.forall_mem_cons]
    unfold keepOk at h
    cases hk : keep a with
    | error e =>
      rw [hk] at h
      cases h
    | ok b =>
      rw [hk] at h
      cases hrest : keepOk keep as with
      | error e =>
        rw [hrest] at h
        cases h
      | ok rest => exact ⟨⟨b, rfl⟩, ih hrest⟩

theorem mem_of_keepOk {l kept : List α} (h : keepOk keep l = .ok kept) {a : α} (ha : a ∈ kept) :
    a ∈ l ∧ keep a = .ok true := by
  induction l generalizing kept with
  | nil =>
    cases h
    cases ha
  | cons x xs ih =>
    unfold keepOk at h
    cases hx : keep x with
    | error e =>
      rw [hx] at h
      cases h
    | ok b =>
      rw [hx] at h
      cases hrest : keepOk keep xs with
      | error e =>
        rw [hrest] at h
        cases h
      | ok rest =>
        rw [hrest] at h
        cases h
        cases b with
        | false =>
          obtain ⟨hmem, hkeep⟩ := ih hrest ha
          exact ⟨List.mem_cons_of_mem _ hmem, hkeep⟩
        | true =>
          rcases List.mem_cons.mp ha with ha | ha
          · rw [ha]
            exact ⟨List.mem_cons_self, hx⟩
          · obtain ⟨hmem, hkeep⟩ := ih hrest ha
            exact ⟨List.mem_cons_of_mem _ hmem, hkeep⟩

/-! ## §3. Loops. -/

/-- What a loop returns, it made of one of its items. -/
theorem mem_of_mapM {g : α → Except ε β} {l : List α} {l' : List β} (h : l.mapM g = .ok l')
    {b : β} (hb : b ∈ l') : ∃ a ∈ l, g a = .ok b := by
  induction l generalizing l' with
  | nil =>
    cases h
    cases hb
  | cons x xs ih =>
    rw [List.mapM_cons] at h
    cases hx : g x with
    | error e =>
      rw [hx] at h
      cases h
    | ok y =>
      cases hxs : xs.mapM g with
      | error e =>
        rw [hx, hxs] at h
        cases h
      | ok ys =>
        rw [hx, hxs] at h
        cases h
        rcases List.mem_cons.mp hb with hb | hb
        · rw [hb]
          exact ⟨x, List.mem_cons_self, hx⟩
        · obtain ⟨a, ha, hab⟩ := ih hxs hb
          exact ⟨a, List.mem_cons_of_mem _ ha, hab⟩

/-- And of each item it made something. -/
theorem mapM_mem {g : α → Except ε β} {l : List α} {l' : List β} (h : l.mapM g = .ok l')
    {a : α} (ha : a ∈ l) : ∃ b ∈ l', g a = .ok b := by
  induction l generalizing l' with
  | nil => cases ha
  | cons x xs ih =>
    rw [List.mapM_cons] at h
    cases hx : g x with
    | error e =>
      rw [hx] at h
      cases h
    | ok y =>
      cases hxs : xs.mapM g with
      | error e =>
        rw [hx, hxs] at h
        cases h
      | ok ys =>
        rw [hx, hxs] at h
        cases h
        rcases List.mem_cons.mp ha with ha | ha
        · rw [ha]
          exact ⟨y, List.mem_cons_self, hx⟩
        · obtain ⟨b, hb, hab⟩ := ih hxs ha
          exact ⟨b, List.mem_cons_of_mem _ hb, hab⟩

/-- A loop that finds something for every item. -/
theorem mapM_of_some {l : List α} (h : ∀ a ∈ l, ∃ b, f a = .ok (some b)) :
    ∃ l' : List β, l.mapM f = .ok (l'.map some) ∧
      List.Forall₂ (fun a b => f a = .ok (some b)) l l' := by
  induction l with
  | nil => exact ⟨[], rfl, .nil⟩
  | cons a as ih =>
    rw [List.forall_mem_cons] at h
    obtain ⟨b, hb⟩ := h.1
    obtain ⟨bs, hbs, hall⟩ := ih h.2
    refine ⟨b :: bs, ?_, .cons hb hall⟩
    rw [List.mapM_cons, hb, hbs]
    rfl

theorem exists_of_forall₂_left {R : α → β → Prop} {l : List α} {l' : List β}
    (h : List.Forall₂ R l l') {a : α} (ha : a ∈ l) : ∃ b ∈ l', R a b := by
  induction h with
  | nil => cases ha
  | @cons x y xs ys hxy _ ih =>
    rcases List.mem_cons.mp ha with ha | ha
    · rw [ha]
      exact ⟨y, List.mem_cons_self, hxy⟩
    · obtain ⟨b, hb, hab⟩ := ih ha
      exact ⟨b, List.mem_cons_of_mem _ hb, hab⟩

/-- `for i, a in enumerate(l, i): s = g(i, a, s)`. -/
def eachFrom {σ : Type} (g : Nat → α → σ → Except ε σ) : Nat → List α → σ → Except ε σ
  | _, [], s => .ok s
  | i, a :: as, s =>
      match g i a s with
      | .error e => .error e
      | .ok s' => eachFrom g (i + 1) as s'

section Each

variable {σ γ δ : Type} {g : Nat → α → σ → Except ε σ}

theorem eachFrom_cons {i : Nat} {a : α} {as : List α} {s s' : σ}
    (h : eachFrom g i (a :: as) s = .ok s') :
    ∃ next, g i a s = .ok next ∧ eachFrom g (i + 1) as next = .ok s' := by
  unfold eachFrom at h
  cases hg : g i a s with
  | error e =>
    rw [hg] at h
    cases h
  | ok next =>
    rw [hg] at h
    exact ⟨next, rfl, h⟩

/-- **What a loop appends**: if every round appends something for each part of its item, the
loop does so for each part of each item, in order. -/
theorem eachFrom_made {out : σ → List γ} {parts : α → List δ} {R : δ → γ → Prop}
    (hstep : ∀ i a s s', g i a s = .ok s' →
      ∃ made, out s' = out s ++ made ∧ List.Forall₂ R (parts a) made)
    {l : List α} {i : Nat} {s s' : σ} (h : eachFrom g i l s = .ok s') :
    ∃ made, out s' = out s ++ made ∧ List.Forall₂ R (l.flatMap parts) made := by
  induction l generalizing i s with
  | nil =>
    cases h
    exact ⟨[], (List.append_nil _).symm, .nil⟩
  | cons a as ih =>
    obtain ⟨next, hg, hrest⟩ := eachFrom_cons h
    obtain ⟨made, hout, hmade⟩ := hstep i a s next hg
    obtain ⟨more, hout', hmore⟩ := ih hrest
    refine ⟨made ++ more, ?_, ?_⟩
    · rw [hout', hout, List.append_assoc]
    · rw [List.flatMap_cons]
      exact List.rel_append hmade hmore

/-- What every round keeps, the loop keeps. -/
theorem eachFrom_invariant {P : σ → Prop}
    (hstep : ∀ i a s s', P s → g i a s = .ok s' → P s') {l : List α} {i : Nat} {s s' : σ}
    (hs : P s) (h : eachFrom g i l s = .ok s') : P s' := by
  induction l generalizing i s with
  | nil =>
    cases h
    exact hs
  | cons a as ih =>
    obtain ⟨next, hg, hrest⟩ := eachFrom_cons h
    exact ih (hstep i a s next hs hg) hrest

/-- A measure that a round raises by `c` at most, the loop raises by `c` for each item. -/
theorem eachFrom_measure {m : σ → Int} {c : Int} {l : List α} {i : Nat} {s s' : σ}
    (hstep : ∀ i s s', ∀ a ∈ l, g i a s = .ok s' → m s' ≤ m s + c)
    (h : eachFrom g i l s = .ok s') : m s' ≤ m s + l.length * c := by
  induction l generalizing i s with
  | nil =>
    cases h
    simp
  | cons a as ih =>
    obtain ⟨next, hg, hrest⟩ := eachFrom_cons h
    have hnext := hstep i s next a List.mem_cons_self hg
    have hmore := ih (fun j t t' b hb => hstep j t t' b (List.mem_cons_of_mem _ hb)) hrest
    rw [List.length_cons, Int.natCast_add, Int.add_mul, Int.natCast_one, Int.one_mul]
    omega

/-- What the rounds may raise, the loop may. -/
theorem raises_eachFrom {P : ε → Prop} {l : List α} {i : Nat} {s : σ}
    (hstep : ∀ i s, ∀ a ∈ l, ∀ e, g i a s = .error e → P e) {e : ε}
    (h : eachFrom g i l s = .error e) : P e := by
  induction l generalizing i s with
  | nil => cases h
  | cons a as ih =>
    unfold eachFrom at h
    cases hg : g i a s with
    | error e' =>
      rw [hg] at h
      cases h
      exact hstep i s a List.mem_cons_self e hg
    | ok next =>
      rw [hg] at h
      exact ih (fun j t b hb => hstep j t b (List.mem_cons_of_mem _ hb)) h

end Each

/-! ## §4. The best of a list. -/

/-- `max(l, key=…)`, or `min`: the first that no other is better than; `better a b` says that
`a` replaces `b`. -/
def firstBest (better : α → α → Bool) : List α → Option α
  | [] => none
  | a :: as => some (as.foldl (fun best x => if better x best then x else best) a)

section Best

variable {better : α → α → Bool} {P : α → Prop}

/-- The fold keeps the first of the best that it has seen. -/
theorem foldl_best (hasymm : ∀ x y, P x → P y → better x y = true → better y x = false)
    (htrans : ∀ x y z, P x → P y → P z → better x y = false → better y z = false →
      better x z = false) (as : List α) (a : α) (hall : ∀ x ∈ a :: as, P x) :
    ∃ best before after, as.foldl (fun best x => if better x best then x else best) a = best ∧
      a :: as = before ++ best :: after ∧ (∀ x ∈ before, better best x = true) ∧
      ∀ x ∈ after, better x best = false := by
  induction as using List.reverseRecOn with
  | nil => exact ⟨a, [], [], rfl, rfl, by simp, by simp⟩
  | append_singleton as x ih =>
    have hsub : ∀ y ∈ a :: as, P y := by
      intro y hy
      apply hall
      rw [← List.cons_append]
      exact List.mem_append_left _ hy
    have hx : P x := hall x (by simp)
    obtain ⟨best, before, after, hfold, hl, hbefore, hafter⟩ := ih hsub
    have hseen : ∀ y ∈ before ++ best :: after, P y := by
      rw [← hl]
      exact hsub
    have hbest : P best := hseen best (by simp)
    rw [List.foldl_append, hfold]
    show ∃ best' before after, (if better x best then x else best) = best' ∧ _
    by_cases h : better x best = true
    · refine ⟨x, before ++ best :: after, [], if_pos h, ?_, ?_, by simp⟩
      · rw [← List.cons_append, hl]
      · -- who is not better than `best` is worse than what replaces it
        have hworse : ∀ y, P y → better y best = false → better x y = true := by
          intro y hPy hy
          cases hxy : better x y with
          | true => rfl
          | false =>
            rw [htrans x y best hx hPy hbest hxy hy] at h
            cases h
        intro y hy
        have hPy := hseen y hy
        rcases List.mem_append.mp hy with hy | hy
        · exact hworse y hPy (hasymm best y hbest hPy (hbefore y hy))
        · rcases List.mem_cons.mp hy with hy | hy
          · rw [hy]
            exact h
          · exact hworse y hPy (hafter y hy)
    · refine ⟨best, before, after ++ [x], if_neg h, ?_, hbefore, ?_⟩
      · rw [← List.cons_append, hl, List.append_assoc, List.cons_append]
      · intro y hy
        rcases List.mem_append.mp hy with hy | hy
        · exact hafter y hy
        · rw [List.mem_singleton.mp hy]
          exact Bool.eq_false_iff.mpr h

/-- **The first of the best**: what is before it is worse, and what is after it no better. -/
theorem firstBest_some (hasymm : ∀ x y, P x → P y → better x y = true → better y x = false)
    (htrans : ∀ x y z, P x → P y → P z → better x y = false → better y z = false →
      better x z = false) {l : List α} (hall : ∀ x ∈ l, P x) {a : α}
    (h : firstBest better l = some a) :
    ∃ before after, l = before ++ a :: after ∧ (∀ x ∈ before, better a x = true) ∧
      ∀ x ∈ after, better x a = false := by
  cases l with
  | nil => cases h
  | cons x xs =>
    obtain ⟨best, before, after, hfold, hl, hbefore, hafter⟩ := foldl_best hasymm htrans xs x hall
    have hbest : best = a := by
      rw [← hfold]
      exact Option.some.inj h
    subst hbest
    exact ⟨before, after, hl, hbefore, hafter⟩

/-- Nothing in the list is better than it. -/
theorem firstBest_top (hasymm : ∀ x y, P x → P y → better x y = true → better y x = false)
    (htrans : ∀ x y z, P x → P y → P z → better x y = false → better y z = false →
      better x z = false) {l : List α} (hall : ∀ x ∈ l, P x) {a : α}
    (h : firstBest better l = some a) : ∀ x ∈ l, better x a = false := by
  obtain ⟨before, after, hl, hbefore, hafter⟩ := firstBest_some hasymm htrans hall h
  have ha : a ∈ l := by
    rw [hl]
    simp
  intro x hx
  have hPx := hall x hx
  rw [hl] at hx
  rcases List.mem_append.mp hx with hx | hx
  · exact hasymm a x (hall a ha) hPx (hbefore x hx)
  · rcases List.mem_cons.mp hx with hx | hx
    · rw [hx]
      cases haa : better a a with
      | false => rfl
      | true =>
        rw [hasymm a a (hall a ha) (hall a ha) haa] at haa
        cases haa
    · exact hafter x hx

end Best

theorem firstBest_mem {better : α → α → Bool} {l : List α} {a : α}
    (h : firstBest better l = some a) : a ∈ l := by
  cases l with
  | nil => cases h
  | cons x xs =>
    rw [← Option.some.inj h]
    have hmem : ∀ (as : List α) (b : α),
        as.foldl (fun best x => if better x best then x else best) b ∈ b :: as := by
      intro as
      induction as with
      | nil =>
        intro b
        exact List.mem_cons_self
      | cons y ys ih =>
        intro b
        rw [List.foldl_cons]
        by_cases h : better y b = true
        · rw [if_pos h]
          exact List.mem_cons_of_mem _ (ih y)
        · rw [if_neg h]
          rcases List.mem_cons.mp (ih b) with hb | hb
          · rw [hb]
            exact List.mem_cons_self
          · exact List.mem_cons_of_mem _ (List.mem_cons_of_mem _ hb)
    exact hmem xs x

theorem firstBest_none {better : α → α → Bool} {l : List α} (h : firstBest better l = none) :
    l = [] := by
  cases l with
  | nil => rfl
  | cons x xs => cases h

end Search
