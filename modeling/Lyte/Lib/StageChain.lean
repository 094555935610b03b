import Mathlib.Data.List.Basic

/-
  Lyte.Lib.StageChain — stages that digest each other.

  Each stage of a chain takes the output of the stage before it and an item of
  its own.  Where a stage is a function of the two, equal items give equal
  outputs; where it is injective in both, a difference is never lost again:

      outputs_eq      equal items so far, equal outputs so far;
      outputs_ne      from the first different item on, all outputs differ.

  Items count as equal up to a relation `same`; what a stage does (`step`) is a
  relation, so that stages may also fail.
-/

namespace StageChain

variable {σ δ β : Type} (step : σ → δ → β → δ → Prop)

/-- `outs` are the outputs of the stages, one after another. -/
def Outputs : List σ → δ → List β → List δ → Prop
  | [], _, [], [] => True
  | s :: stages, input, x :: xs, out :: outs =>
      step s input x out ∧ Outputs stages out xs outs
  | _, _, _, _ => False

variable {step} {same : β → β → Prop}

theorem Outputs.cons {s : σ} {stages : List σ} {input : δ} {xs : List β} {outs : List δ}
    (h : Outputs step (s :: stages) input xs outs) :
    ∃ x rest out more, xs = x :: rest ∧ outs = out :: more ∧ step s input x out ∧
      Outputs step stages out rest more := by
  cases xs with
  | nil => exact False.elim h
  | cons x rest =>
    cases outs with
    | nil => exact False.elim h
    | cons out more => exact ⟨x, rest, out, more, rfl, rfl, h.1, h.2⟩

theorem Outputs.nil {input : δ} {xs : List β} {outs : List δ}
    (h : Outputs step [] input xs outs) : xs = [] ∧ outs = [] := by
  cases xs with
  | nil =>
    cases outs with
    | nil => exact ⟨rfl, rfl⟩
    | cons out more => exact False.elim h
  | cons x rest => exact False.elim h

theorem Outputs.length {stages : List σ} {input : δ} {xs : List β} {outs : List δ}
    (h : Outputs step stages input xs outs) : outs.length = stages.length := by
  induction stages generalizing input xs outs with
  | nil =>
    rw [h.nil.2]
    rfl
  | cons s stages ih =>
    obtain ⟨x, rest, out, more, rfl, rfl, _, hrest⟩ := h.cons
    rw [List.length_cons, List.length_cons, ih hrest]

/-- **Equal items so far, equal outputs so far.** -/
theorem outputs_eq
    (hfun : ∀ s input x y out out', step s input x out → step s input y out' → same x y →
      out = out')
    {stages : List σ} {input : δ} {xs ys : List β} {outs outs' : List δ}
    (h : Outputs step stages input xs outs) (h' : Outputs step stages input ys outs') {i : Nat}
    (hsame : ∀ j < i, ∀ x y, xs[j]? = some x → ys[j]? = some y → same x y) :
    ∀ j < i, outs[j]? = outs'[j]? := by
  induction stages generalizing input xs ys outs outs' i with
  | nil =>
    intro j _
    rw [h.nil.2, h'.nil.2]
  | cons s stages ih =>
    obtain ⟨x, xs, out, outs, rfl, rfl, hstep, hrest⟩ := h.cons
    obtain ⟨y, ys, out', outs', rfl, rfl, hstep', hrest'⟩ := h'.cons
    intro j hj
    have hhead : out = out' := hfun _ _ _ _ _ _ hstep hstep' (hsame 0 (by omega) x y rfl rfl)
    cases j with
    | zero => exact congrArg some hhead
    | succ j =>
      rw [← hhead] at hrest'
      have htail := ih hrest hrest' (i := i - 1) (fun k hk a b ha hb =>
        hsame (k + 1) (by omega) a b ha hb)
      exact htail j (by omega)

section Injective

variable (hinj : ∀ s input input' x y out, step s input x out → step s input' y out →
  input = input' ∧ same x y)

include hinj

/-- Chains that start differently differ everywhere. -/
theorem outputs_ne_of_input {stages : List σ} {input input' : δ} {xs ys : List β}
    {outs outs' : List δ} (h : Outputs step stages input xs outs)
    (h' : Outputs step stages input' ys outs') (hne : input ≠ input') :
    ∀ j, j < stages.length → outs[j]? ≠ outs'[j]? := by
  induction stages generalizing input input' xs ys outs outs' with
  | nil =>
    intro j hj
    exact absurd hj (Nat.not_lt_zero j)
  | cons s stages ih =>
    obtain ⟨x, xs, out, outs, rfl, rfl, hstep, hrest⟩ := h.cons
    obtain ⟨y, ys, out', outs', rfl, rfl, hstep', hrest'⟩ := h'.cons
    have hhead : out ≠ out' := by
      intro heq
      rw [← heq] at hstep'
      exact hne (hinj _ _ _ _ _ _ hstep hstep').1
    intro j hj
    cases j with
    | zero => exact fun heq => hhead (Option.some.inj heq)
    | succ j => exact ih hrest hrest' hhead j (by rw [List.length_cons] at hj; omega)

/-- **From the first different item on, all outputs differ.** -/
theorem outputs_ne
    (hfun : ∀ s input x y out out', step s input x out → step s input y out' → same x y →
      out = out')
    {stages : List σ} {input : δ} {xs ys : List β} {outs outs' : List δ}
    (h : Outputs step stages input xs outs) (h' : Outputs step stages input ys outs') {i : Nat}
    (hsame : ∀ j < i, ∀ x y, xs[j]? = some x → ys[j]? = some y → same x y)
    (hdiffer : ∀ x y, xs[i]? = some x → ys[i]? = some y → ¬ same x y) :
    ∀ j, i ≤ j → j < stages.length → outs[j]? ≠ outs'[j]? := by
  induction stages generalizing input xs ys outs outs' i with
  | nil =>
    intro j _ hj
    exact absurd hj (Nat.not_lt_zero j)
  | cons s stages ih =>
    obtain ⟨x, xs, out, outs, rfl, rfl, hstep, hrest⟩ := h.cons
    obtain ⟨y, ys, out', outs', rfl, rfl, hstep', hrest'⟩ := h'.cons
    intro j hij hj
    rw [List.length_cons] at hj
    cases i with
    | zero =>
      have hhead : out ≠ out' := by
        intro heq
        rw [← heq] at hstep'
        exact hdiffer x y rfl rfl (hinj _ _ _ _ _ _ hstep hstep').2
      cases j with
      | zero => exact fun heq => hhead (Option.some.inj heq)
      | succ j =>
        have hbound : j < stages.length := by omega
        exact outputs_ne_of_input hinj hrest hrest' hhead j hbound
    | succ i =>
      have hhead : out = out' := hfun _ _ _ _ _ _ hstep hstep' (hsame 0 (by omega) x y rfl rfl)
      rw [← hhead] at hrest'
      cases j with
      | zero => exact absurd hij (by omega)
      | succ j =>
        exact ih hrest hrest' (fun k hk a b ha hb => hsame (k + 1) (by omega) a b ha hb)
          (fun a b ha hb => hdiffer a b ha hb) j (by omega) (by omega)

end Injective

end StageChain
