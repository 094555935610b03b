import Lyte.Intelligence.ForecastLoom
import Lyte.Domain.Dicts
import Mathlib.Tactic.Ring
import Mathlib.Tactic.FieldSimp
import Mathlib.Tactic.Linarith

/-
  Lyte.Intelligence.QuantileKeys — keys tell quantiles apart.

  A key is the percentage of a decimal, without the zeros that its fraction ends
  with.  Whole part and fraction are read back from the text, so a key names one
  number: 0.101 and 0.104 are `q10.1` and `q10.4`, and 0.1 and 0.10 are both `q10`.

      Decimal.key_value   decimals with the same key have the same value.
-/

namespace Lyte

/-! ## §1. Digits. -/

theorem foldl_digits (ds : PyStr) (k : Nat) :
    ds.foldl (fun n c => n * 10 + (c - 48)) k = k * 10 ^ ds.length + natOfDigits ds := by
  induction ds generalizing k with
  | nil => simp [natOfDigits]
  | cons d ds ih =>
    have hrest := ih (0 * 10 + (d - 48))
    unfold natOfDigits
    rw [List.foldl_cons, List.foldl_cons, ih, hrest, List.length_cons, Nat.pow_succ]
    ring

theorem natOfDigits_append (a b : PyStr) :
    natOfDigits (a ++ b) = natOfDigits a * 10 ^ b.length + natOfDigits b := by
  show (a ++ b).foldl _ 0 = _
  rw [List.foldl_append]
  exact foldl_digits b _

theorem natOfDigits_zeros (n : Nat) : natOfDigits (List.replicate n 48) = 0 := by
  induction n with
  | zero => rfl
  | succ n ih =>
    rw [List.replicate_succ]
    show (List.replicate n 48).foldl _ (0 * 10 + (48 - 48)) = 0
    exact ih

theorem natOfDigits_zfill (n k : Nat) : natOfDigits (zfill n k) = k := by
  unfold zfill
  rw [natOfDigits_append, natOfDigits_zeros, natOfDigits_decimal]
  omega

theorem zfill_length {n k : Nat} (h : (decimal k).length ≤ n) : (zfill n k).length = n := by
  unfold zfill
  rw [List.length_append, List.length_replicate]
  omega

theorem isDigit_of_mem_zfill {n k c : Nat} (h : c ∈ zfill n k) : isDigit c = true := by
  rcases List.mem_append.mp h with h | h
  · rw [List.eq_of_mem_replicate h]
    rfl
  · exact isDigit_of_mem_decimal h

/-- A text is what `rstrip("0")` leaves of it, and zeros. -/
theorem rstrip_zeros (s : PyStr) : ∃ k,
    s = (s.reverse.dropWhile (· == 48)).reverse ++ List.replicate k 48 := by
  refine ⟨(s.reverse.takeWhile (· == 48)).length, ?_⟩
  have hzeros : (s.reverse.takeWhile (· == 48)).reverse
      = List.replicate (s.reverse.takeWhile (· == 48)).length 48 := by
    rw [← List.length_reverse, List.eq_replicate_iff]
    refine ⟨rfl, fun c hc => ?_⟩
    have hall := List.all_eq_true.mp (@List.all_takeWhile _ (· == 48) s.reverse)
    exact beq_iff_eq.mp (hall c (List.mem_reverse.mp hc))
  rw [← hzeros, ← List.reverse_append, List.takeWhile_append_dropWhile, List.reverse_reverse]

/-! ## §2. Keys. -/

namespace Decimal

/-- The whole part of the percentage. -/
def whole (x : Decimal) : Nat := x.coefficient * 100 / 10 ^ x.places

/-- The digits after its point, without zeros at the end. -/
def fraction (x : Decimal) : PyStr :=
  if x.places = 0 then [] else
    ((zfill x.places (x.coefficient * 100 % 10 ^ x.places)).reverse.dropWhile (· == 48)).reverse

/-- Nothing, or the point and the digits after it. -/
def pointed (fraction : PyStr) : PyStr := if fraction.isEmpty then [] else 46 :: fraction

theorem key_eq (x : Decimal) : x.key = py "q" ++ zfill 2 x.whole ++ pointed x.fraction := rfl

/-- The digits that are left after the zeros are dropped still say what is after the
point. -/
theorem fraction_spec (x : Decimal) :
    x.coefficient * 100 % 10 ^ x.places * 10 ^ x.fraction.length
      = natOfDigits x.fraction * 10 ^ x.places := by
  unfold fraction
  by_cases hp : x.places = 0
  · rw [if_pos hp, hp]
    simp [natOfDigits, Nat.mod_one]
  · rw [if_neg hp]
    have hlt : x.coefficient * 100 % 10 ^ x.places < 10 ^ x.places :=
      Nat.mod_lt _ (Nat.pow_pos (by decide))
    have hlength := zfill_length (decimal_length_le (Nat.pos_of_ne_zero hp) hlt)
    have hvalue := natOfDigits_zfill x.places (x.coefficient * 100 % 10 ^ x.places)
    generalize x.coefficient * 100 % 10 ^ x.places = r at hlength hvalue
    obtain ⟨k, hk⟩ := rstrip_zeros (zfill x.places r)
    generalize ((zfill x.places r).reverse.dropWhile (· == 48)).reverse = t at hk
    rw [hk, natOfDigits_append, natOfDigits_zeros, List.length_replicate] at hvalue
    rw [hk, List.length_append, List.length_replicate] at hlength
    rw [← hvalue, ← hlength, Nat.pow_add]
    ring

/-- **Whole part and fraction say the value.** -/
theorem value_eq (x : Decimal) : x.value * 100
    = (x.whole : Rat) + (natOfDigits x.fraction : Rat) / (10 : Rat) ^ x.fraction.length := by
  have hsplit : (10 : Rat) ^ x.places * (x.whole : Rat)
      + ((x.coefficient * 100 % 10 ^ x.places : Nat) : Rat) = (x.coefficient : Rat) * 100 := by
    have hnat : 10 ^ x.places * x.whole + x.coefficient * 100 % 10 ^ x.places
        = x.coefficient * 100 := Nat.div_add_mod _ _
    have hcast := congrArg (fun n : Nat => (n : Rat)) hnat
    simpa only [Nat.cast_add, Nat.cast_mul, Nat.cast_pow, Nat.cast_ofNat] using hcast
  have hfraction : ((x.coefficient * 100 % 10 ^ x.places : Nat) : Rat)
      * (10 : Rat) ^ x.fraction.length = (natOfDigits x.fraction : Rat) * (10 : Rat) ^ x.places := by
    have hcast := congrArg (fun n : Nat => (n : Rat)) (fraction_spec x)
    simpa only [Nat.cast_mul, Nat.cast_pow, Nat.cast_ofNat] using hcast
  have hplaces : (10 : Rat) ^ x.places ≠ 0 := by positivity
  have hdigits : (10 : Rat) ^ x.fraction.length ≠ 0 := by positivity
  unfold value
  rw [Rat.mkRat_eq_div]
  push_cast
  generalize ((x.coefficient * 100 % 10 ^ x.places : Nat) : Rat) = r at hsplit hfraction
  have hrest : (natOfDigits x.fraction : Rat) / (10 : Rat) ^ x.fraction.length
      = r / (10 : Rat) ^ x.places := by
    rw [div_eq_div_iff hdigits hplaces]
    exact hfraction.symm
  rw [hrest, div_mul_eq_mul_div, ← hsplit, add_div, mul_div_cancel_left₀ _ hplaces]

/-- The parts of a key are read back from it. -/
theorem parts_of_key {x y : Decimal} (h : x.key = y.key) :
    x.whole = y.whole ∧ x.fraction = y.fraction := by
  rw [key_eq, key_eq, List.append_assoc, List.append_assoc] at h
  have htail := List.append_cancel_left h
  have hend : ∀ f : PyStr, ∀ c, (pointed f).head? = some c → isDigit c = false := by
    intro f c hc
    unfold pointed at hc
    split at hc
    · cases hc
    · cases hc
      rfl
  have hx := @takeWhile_digits _ (pointed x.fraction)
    (fun c hc => isDigit_of_mem_zfill (n := 2) (k := x.whole) hc) (hend x.fraction)
  have hy := @takeWhile_digits _ (pointed y.fraction)
    (fun c hc => isDigit_of_mem_zfill (n := 2) (k := y.whole) hc) (hend y.fraction)
  rw [htail] at hx
  have hwhole : zfill 2 y.whole = zfill 2 x.whole := hy.1.symm.trans hx.1
  have hpoint : pointed y.fraction = pointed x.fraction := hy.2.symm.trans hx.2
  constructor
  · have hback := congrArg natOfDigits hwhole
    rw [natOfDigits_zfill, natOfDigits_zfill] at hback
    exact hback.symm
  · unfold pointed at hpoint
    cases hf : x.fraction with
    | nil =>
      cases hg : y.fraction with
      | nil => rfl
      | cons d ds =>
        rw [hf, hg] at hpoint
        cases hpoint
    | cons c cs =>
      cases hg : y.fraction with
      | nil =>
        rw [hf, hg] at hpoint
        cases hpoint
      | cons d ds =>
        rw [hf, hg] at hpoint
        exact (List.cons.inj hpoint).2.symm

/-- **A key names one number.** -/
theorem key_value {x y : Decimal} (h : x.key = y.key) : x.value = y.value := by
  obtain ⟨hwhole, hfraction⟩ := parts_of_key h
  have hx := value_eq x
  rw [hwhole, hfraction, ← value_eq y] at hx
  linarith

end Decimal

end Lyte
