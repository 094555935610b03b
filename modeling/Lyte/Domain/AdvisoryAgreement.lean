import Lyte.Domain.Formulas
import Lyte.Domain.Spellings
import Lyte.Lib.Program

/-
  Lyte.Domain.AdvisoryAgreement — two implementations of one advisory.

  Both are meant to compute `advisory`, a capped product of powers in which
  `0 ^ 0` is 1.  `lambda_advisory` takes the logarithm of an axis that is zero
  with no weight, and raises; the engine floors its axes, which shows where a
  positively weighted axis is below the floor and the product is below the cap.

      advisory_agreement   both return the advisory exactly where neither happens
                           and the names of the axes are trimmed
-/

namespace Lyte

open Transact

/-! ## §1. Products of powers. -/

/-- The product of the values, each raised to its weight. -/
noncomputable def geo (pairs : List (ℝ × ℝ)) : ℝ := (pairs.map (fun p => p.1 ^ p.2)).prod

theorem geo_nonneg {pairs : List (ℝ × ℝ)} (h : ∀ p ∈ pairs, 0 ≤ p.1) : 0 ≤ geo pairs := by
  apply List.prod_nonneg
  intro x hx
  obtain ⟨p, hp, rfl⟩ := List.mem_map.mp hx
  exact Real.rpow_nonneg (h p hp) _

theorem geo_zero {pairs : List (ℝ × ℝ)} (h : zeroAxis pairs) : geo pairs = 0 := by
  obtain ⟨p, hp, hvalue, hweight⟩ := h
  apply List.prod_eq_zero
  apply List.mem_map.mpr
  refine ⟨p, hp, ?_⟩
  rw [hvalue]
  exact Real.zero_rpow hweight.ne'

/-- A product of powers is positive where no axis makes it zero. -/
theorem geo_pos {pairs : List (ℝ × ℝ)} (h : ∀ p ∈ pairs, 0 ≤ p.1 ∧ 0 ≤ p.2)
    (hz : ¬ zeroAxis pairs) : 0 < geo pairs := by
  apply List.prod_pos
  intro x hx
  obtain ⟨p, hp, rfl⟩ := List.mem_map.mp hx
  obtain ⟨hvalue, hweight⟩ := h p hp
  by_cases hp0 : p.1 = 0
  · have hw : p.2 = 0 := by
      by_contra hne
      exact hz ⟨p, hp, hp0, lt_of_le_of_ne hweight (Ne.symm hne)⟩
    rw [hp0, hw, Real.rpow_zero]
    exact one_pos
  · exact Real.rpow_pos_of_pos (lt_of_le_of_ne hvalue (Ne.symm hp0)) _

/-- **A product of powers is zero exactly where a positively weighted value is.** -/
theorem geo_eq_zero_iff {pairs : List (ℝ × ℝ)} (h : ∀ p ∈ pairs, 0 ≤ p.1 ∧ 0 ≤ p.2) :
    geo pairs = 0 ↔ zeroAxis pairs := by
  constructor
  · intro hgeo
    by_contra hz
    exact (geo_pos h hz).ne' hgeo
  · exact geo_zero

theorem exp_log {pairs : List (ℝ × ℝ)} (h : ∀ p ∈ pairs, 0 < p.1) :
    Real.exp (pairs.map (fun p => p.2 * Real.log p.1)).sum = geo pairs := by
  rw [Real.exp_list_sum, List.map_map]
  unfold geo
  congr 1
  apply List.map_congr_left
  intro p hp
  show Real.exp (p.2 * Real.log p.1) = _
  rw [Real.rpow_def_of_pos (h p hp), mul_comm]

/-- Larger values give a larger product. -/
theorem geo_mono {α : Type} (items : List α) {f g weight : α → ℝ}
    (h : ∀ a ∈ items, 0 ≤ f a ∧ f a ≤ g a ∧ 0 ≤ weight a) :
    geo (items.map (fun a => (f a, weight a))) ≤ geo (items.map (fun a => (g a, weight a))) := by
  unfold geo
  rw [List.map_map, List.map_map]
  induction items with
  | nil => exact le_refl _
  | cons a items ih =>
    obtain ⟨hf, hfg, hw⟩ := h a List.mem_cons_self
    have hrest := ih (fun b hb => h b (List.mem_cons_of_mem _ hb))
    rw [List.map_cons, List.map_cons, List.prod_cons, List.prod_cons]
    apply mul_le_mul (Real.rpow_le_rpow hf hfg hw) hrest
    · apply List.prod_nonneg
      intro x hx
      obtain ⟨b, hb, rfl⟩ := List.mem_map.mp hx
      exact Real.rpow_nonneg (h b (List.mem_cons_of_mem _ hb)).1 _
    · exact Real.rpow_nonneg (hf.trans hfg) _

/-! ## §2. Floors. -/

/-- The pairs with their values floored. -/
noncomputable def floored (floor : ℝ) (pairs : List (ℝ × ℝ)) : List (ℝ × ℝ) :=
  pairs.map (fun p => (max p.1 floor, p.2))

/-- A floor changes a product of powers exactly where it changes a weighted value. -/
theorem geo_floored {floor : ℝ} (hfloor : 0 < floor) {pairs : List (ℝ × ℝ)}
    (h : ∀ p ∈ pairs, 0 ≤ p.1 ∧ 0 ≤ p.2) (hz : ¬ zeroAxis pairs) :
    geo pairs ≤ geo (floored floor pairs) ∧
      (geo pairs = geo (floored floor pairs) ↔ ∀ p ∈ pairs, 0 < p.2 → floor ≤ p.1) := by
  induction pairs with
  | nil => simp [floored, geo]
  | cons p pairs ih =>
    obtain ⟨hvalue, hweight⟩ := h p List.mem_cons_self
    have hrest := fun q hq => h q (List.mem_cons_of_mem p hq)
    have hz' : ¬ zeroAxis pairs := by
      rintro ⟨q, hq, hq'⟩
      exact hz ⟨q, List.mem_cons_of_mem _ hq, hq'⟩
    obtain ⟨hle, hiff⟩ := ih hrest hz'
    have hpos := geo_pos hrest hz'
    have hcons : geo (p :: pairs) = p.1 ^ p.2 * geo pairs := by simp [geo]
    have hconsf : geo (floored floor (p :: pairs))
        = (max p.1 floor) ^ p.2 * geo (floored floor pairs) := by simp [geo, floored]
    have hpow : p.1 ^ p.2 ≤ (max p.1 floor) ^ p.2 :=
      Real.rpow_le_rpow hvalue (le_max_left _ _) hweight
    have hpowpos : 0 < (max p.1 floor) ^ p.2 :=
      Real.rpow_pos_of_pos (lt_of_lt_of_le hfloor (le_max_right _ _)) _
    rw [hcons, hconsf]
    refine ⟨mul_le_mul hpow hle hpos.le hpowpos.le, ?_⟩
    rw [List.forall_mem_cons]
    constructor
    · intro heq
      have hfirst : p.1 ^ p.2 = (max p.1 floor) ^ p.2 := by
        by_contra hne
        have hlt := lt_of_le_of_ne hpow hne
        have hprod : p.1 ^ p.2 * geo pairs < (max p.1 floor) ^ p.2 * geo (floored floor pairs) :=
          mul_lt_mul hlt hle hpos hpowpos.le
        exact hprod.ne heq
      refine ⟨?_, ?_⟩
      · intro hw
        by_contra hlt
        have hmax : p.1 < max p.1 floor := lt_of_lt_of_le (not_le.mp hlt) (le_max_right _ _)
        exact (Real.rpow_lt_rpow hvalue hmax hw).ne hfirst
      · apply hiff.mp
        rw [hfirst] at heq
        exact mul_left_cancel₀ hpowpos.ne' heq
    · rintro ⟨hfirst, hall⟩
      rw [hiff.mpr hall]
      congr 1
      rcases hweight.lt_or_eq with hw | hw
      · rw [max_eq_left (hfirst hw)]
      · rw [← hw, Real.rpow_zero, Real.rpow_zero]

/-! ## §3. Scores. -/

theorem mapM_ok {ε α β : Type} {f : α → Except ε β} {g : α → β} {items : List α}
    (h : ∀ a ∈ items, f a = .ok (g a)) : items.mapM f = .ok (items.map g) := by
  induction items with
  | nil => rfl
  | cons a items ih =>
    rw [List.mapM_cons, h a List.mem_cons_self, ih (fun b hb => h b (List.mem_cons_of_mem _ hb))]
    rfl

theorem ok_of_mapM_mem {ε α β : Type} {f : α → Except ε β} {items : List α} {results : List β}
    (h : items.mapM f = .ok results) {a : α} (ha : a ∈ items) : ∃ b, f a = .ok b := by
  induction items generalizing results with
  | nil => cases ha
  | cons c items ih =>
    rw [List.mapM_cons] at h
    obtain ⟨b, hb, h⟩ := ok_of_bind h
    obtain ⟨bs, hbs, _⟩ := ok_of_bind h
    rcases List.mem_cons.mp ha with rfl | ha
    · exact ⟨b, hb⟩
    · exact ih hbs ha

theorem pyLog_pos {x : ℝ} (h : 0 < x) : pyLog x = .ok (Real.log x) := by
  unfold pyLog
  rw [if_neg (not_le.mpr h)]

/-- The first score is the product of powers, unless an axis is zero that no weight counts. -/
theorem lambdaScore_ok {pairs : List (ℝ × ℝ)} (h : ∀ p ∈ pairs, 0 ≤ p.1)
    (hz : zeroAxis pairs ∨ ∀ p ∈ pairs, p.1 ≠ 0) : lambdaScore pairs = .ok (geo pairs) := by
  unfold lambdaScore
  by_cases hzero : zeroAxis pairs
  · rw [if_pos hzero, geo_zero hzero]
  · rw [if_neg hzero]
    have hpos : ∀ p ∈ pairs, 0 < p.1 :=
      fun p hp => lt_of_le_of_ne (h p hp) (Ne.symm (hz.resolve_left hzero p hp))
    have hterms : pairs.mapM (fun p : ℝ × ℝ => do return p.2 * (← pyLog p.1))
        = Except.ok (pairs.map (fun p => p.2 * Real.log p.1)) := by
      apply mapM_ok
      intro p hp
      rw [pyLog_pos (hpos p hp)]
      rfl
    rw [hterms, ← exp_log hpos]
    rfl

/-- It raises where such an axis is. -/
theorem lambdaScore_raises {pairs : List (ℝ × ℝ)} {score : ℝ} (h : lambdaScore pairs = .ok score) :
    zeroAxis pairs ∨ ∀ p ∈ pairs, p.1 ≠ 0 := by
  by_cases hzero : zeroAxis pairs
  · exact .inl hzero
  · right
    intro p hp hp0
    unfold lambdaScore at h
    rw [if_neg hzero] at h
    obtain ⟨terms, hterms, _⟩ := ok_of_bind h
    obtain ⟨q, hq⟩ := ok_of_mapM_mem hterms hp
    obtain ⟨l, hl, _⟩ := ok_of_bind hq
    unfold pyLog at hl
    rw [if_pos hp0.le] at hl
    cases hl

/-- The second score is the product of powers of the floored axes. -/
theorem engineScore_ok {pairs : List (ℝ × ℝ)} (hz : ¬ zeroAxis pairs) :
    engineScore pairs = .ok (geo (floored (10 ^ (-15 : ℤ)) pairs)) := by
  unfold engineScore
  rw [if_neg hz]
  have hfloor : (0 : ℝ) < 10 ^ (-15 : ℤ) := by positivity
  have hpos : ∀ p ∈ floored (10 ^ (-15 : ℤ)) pairs, 0 < p.1 := by
    intro p hp
    obtain ⟨q, _, rfl⟩ := List.mem_map.mp hp
    exact lt_of_lt_of_le hfloor (le_max_right _ _)
  have hterms : pairs.mapM (fun p : ℝ × ℝ => do return p.2 * (← pyLog (max p.1 (10 ^ (-15 : ℤ)))))
      = Except.ok (pairs.map (fun p => p.2 * Real.log (max p.1 (10 ^ (-15 : ℤ))))) := by
    apply mapM_ok
    intro p hp
    rw [pyLog_pos (lt_of_lt_of_le hfloor (le_max_right _ _))]
    rfl
  rw [hterms, ← exp_log hpos]
  unfold floored
  rw [List.map_map]
  rfl

theorem engineScore_zero {pairs : List (ℝ × ℝ)} (hz : zeroAxis pairs) :
    engineScore pairs = .ok (geo pairs) := by
  unfold engineScore
  rw [if_pos hz, geo_zero hz]

/-- A floored score under the cap is the score under the cap. -/
theorem capped_floored {pairs : List (ℝ × ℝ)} (h : ∀ p ∈ pairs, 0 ≤ p.1 ∧ 0 ≤ p.2)
    (hz : ¬ zeroAxis pairs) {floor cap : ℝ} (hfloor : 0 < floor) :
    min cap (geo (floored floor pairs)) = min cap (geo pairs) ↔
      (∀ p ∈ pairs, 0 < p.2 → floor ≤ p.1) ∨ cap ≤ geo pairs := by
  obtain ⟨hle, hiff⟩ := geo_floored hfloor h hz
  constructor
  · intro heq
    by_cases hcap : cap ≤ geo pairs
    · exact .inr hcap
    · left
      apply hiff.mp
      rw [min_eq_right (not_le.mp hcap).le] at heq
      apply le_antisymm hle
      by_contra hlt
      have hmin : geo pairs < min cap (geo (floored floor pairs)) :=
        lt_min (not_le.mp hcap) (not_le.mp hlt)
      exact hmin.ne heq.symm
  · intro h'
    rcases h' with hall | hcap
    · rw [hiff.mpr hall]
    · rw [min_eq_left hcap, min_eq_left (hcap.trans hle)]

/-! ## §4. Weights. -/

/-- Non-negative weights on exactly the axes, with a positive sum, or none. -/
def Weighted (axes : List (PyStr × ℝ)) : Option (List (PyStr × ℝ)) → Prop
  | none => True
  | some ws => (ws.map Prod.fst).Nodup ∧ (ws.map Prod.fst).Perm (axes.map Prod.fst) ∧
      (∀ w ∈ ws, 0 ≤ w.2) ∧ 0 < (ws.map Prod.snd).sum

/-- A set of numeric axes in [0, 1], with weights. -/
structure Numeric (axes : List (PyStr × ℝ)) (weights : Option (List (PyStr × ℝ))) : Prop where
  nonempty : axes ≠ []
  names : (axes.map Prod.fst).Nodup
  values : ∀ a ∈ axes, 0 ≤ a.2 ∧ a.2 ≤ 1
  weights : Weighted axes weights

/-- `weight / total`, or an equal share. -/
noncomputable def weightOf (axes : List (PyStr × ℝ)) (weights : Option (List (PyStr × ℝ)))
    (name : PyStr) : ℝ :=
  match weights with
  | none => 1 / axes.length
  | some ws => rawWeight ws name / (ws.map Prod.snd).sum

/-- The axes with their weights. -/
noncomputable def weighted (axes : List (PyStr × ℝ)) (weights : Option (List (PyStr × ℝ))) :
    List (ℝ × ℝ) := axes.map (fun a => (a.2, weightOf axes weights a.1))

/-- **What both implementations are meant to compute.** -/
noncomputable def advisory (axes : List (PyStr × ℝ)) (weights : Option (List (PyStr × ℝ))) : ℝ :=
  min trustCeiling (geo (weighted axes weights))

theorem rawWeight_mem {ws : List (PyStr × ℝ)} (hn : (ws.map Prod.fst).Nodup) {w : PyStr × ℝ}
    (hw : w ∈ ws) : rawWeight ws w.1 = w.2 := by
  unfold rawWeight
  rw [Json.lookup_of_mem hn hw]
  rfl

theorem sum_rawWeight {ws : List (PyStr × ℝ)} {names : List PyStr} (hn : (ws.map Prod.fst).Nodup)
    (hperm : (ws.map Prod.fst).Perm names) :
    (names.map (rawWeight ws)).sum = (ws.map Prod.snd).sum := by
  calc (names.map (rawWeight ws)).sum = ((ws.map Prod.fst).map (rawWeight ws)).sum :=
        ((hperm.map (rawWeight ws)).sum_eq).symm
    _ = (ws.map Prod.snd).sum := by
        rw [List.map_map]
        congr 1
        apply List.map_congr_left
        exact fun w hw => rawWeight_mem hn hw

theorem rawWeight_nonneg {ws : List (PyStr × ℝ)} (h : ∀ w ∈ ws, 0 ≤ w.2) (name : PyStr) :
    0 ≤ rawWeight ws name := by
  unfold rawWeight
  cases hl : ws.lookup name with
  | none => exact le_refl _
  | some v =>
    obtain ⟨l₁, l₂, rfl, _⟩ := List.lookup_eq_some_iff.mp hl
    exact h (name, v) (by simp)

theorem weightOf_nonneg {axes : List (PyStr × ℝ)} {weights : Option (List (PyStr × ℝ))}
    (h : Weighted axes weights) (name : PyStr) : 0 ≤ weightOf axes weights name := by
  cases weights with
  | none => exact div_nonneg one_pos.le (Nat.cast_nonneg _)
  | some ws => exact div_nonneg (rawWeight_nonneg h.2.2.1 name) h.2.2.2.le

theorem weighted_nonneg {axes : List (PyStr × ℝ)} {weights : Option (List (PyStr × ℝ))}
    (h : Numeric axes weights) : ∀ p ∈ weighted axes weights, 0 ≤ p.1 ∧ 0 ≤ p.2 := by
  intro p hp
  obtain ⟨a, ha, rfl⟩ := List.mem_map.mp hp
  exact ⟨(h.values a ha).1, weightOf_nonneg h.weights _⟩

theorem sameNames_perm {ws : List (PyStr × ℝ)} {names : List PyStr}
    (hperm : (ws.map Prod.fst).Perm names) : sameNames ws names = true := by
  unfold sameNames
  rw [Bool.and_eq_true, List.all_eq_true, List.all_eq_true]
  constructor
  · intro w hw
    exact List.contains_iff_mem.mpr (hperm.mem_iff.mp (List.mem_map_of_mem hw))
  · intro n hn
    obtain ⟨w, hw, rfl⟩ := List.mem_map.mp (hperm.mem_iff.mpr hn)
    rw [List.lookup_isSome_iff]
    exact ⟨w, hw, beq_self_eq_true _⟩

/-- The weights are normalized, for the names that they are given on. -/
theorem normalizeWeights_ok {axes : List (PyStr × ℝ)} {weights : Option (List (PyStr × ℝ))}
    (h : Weighted axes weights) (mismatch : PyStr) (names : List PyStr)
    (hlength : names.length = axes.length) (hnames : weights.isSome → names = axes.map Prod.fst) :
    normalizeWeights mismatch names weights = .ok (weightOf axes weights) := by
  cases weights with
  | none =>
    unfold normalizeWeights
    rw [hlength]
    rfl
  | some ws =>
    obtain ⟨hnodup, hperm, hnonneg, hpos⟩ := h
    rw [hnames rfl]
    have hraw : (axes.map Prod.fst).mapM
        (fun n => atLeastZero (rawWeight ws n) (py "weight." ++ n))
        = Except.ok ((axes.map Prod.fst).map (rawWeight ws)) := by
      apply mapM_ok
      intro n hn
      unfold atLeastZero
      rw [if_neg (not_lt.mpr (rawWeight_nonneg hnonneg n))]
    have hsum := sum_rawWeight hnodup hperm
    unfold normalizeWeights
    simp only [sameNames_perm hperm, Bool.not_true, Bool.false_eq_true, if_false, hraw]
    show (if ((axes.map Prod.fst).map (rawWeight ws)).sum ≤ 0 then _ else _) = _
    rw [hsum, if_neg (not_le.mpr hpos)]
    rfl

/-! ## §5. Names. -/

/-- The axes with their numbers, as the advisory is given them. -/
def numbers (axes : List (PyStr × ℝ)) : List (PyStr × Option ℝ) := axes.map (fun a => (a.1, some a.2))

/-- The axes under their trimmed names. -/
def trimmed (axes : List (PyStr × ℝ)) : List (PyStr × ℝ) := axes.map (fun a => (strip a.1, a.2))

/-- Trimmed, the names are distinct and not empty; where weights name the axes, they are trimmed
as they stand. -/
def NamesTrimmed (axes : List (PyStr × ℝ)) (weights : Option (List (PyStr × ℝ))) : Prop :=
  (∀ a ∈ axes, strip a.1 ≠ []) ∧ ((trimmed axes).map Prod.fst).Nodup ∧
    (weights.isSome → ∀ a ∈ axes, strip a.1 = a.1)

theorem cleanAxes_ok {axes clean : List (PyStr × ℝ)} (hvalues : ∀ a ∈ axes, 0 ≤ a.2 ∧ a.2 ≤ 1)
    (hne : ∀ a ∈ axes, strip a.1 ≠ [])
    (hnodup : ((clean ++ trimmed axes).map Prod.fst).Nodup) :
    cleanAxes (numbers axes) clean [] = .ok (clean ++ trimmed axes, []) := by
  induction axes generalizing clean with
  | nil =>
    show Except.ok (clean, []) = _
    rw [show trimmed [] = [] from rfl, List.append_nil]
  | cons a axes ih =>
    obtain ⟨hlow, hhigh⟩ := hvalues a List.mem_cons_self
    have hsplit : clean ++ trimmed (a :: axes) = (clean ++ [(strip a.1, a.2)]) ++ trimmed axes := by
      simp [trimmed]
    rw [hsplit] at hnodup
    have hempty : (strip a.1).isEmpty = false := by
      simpa using hne a List.mem_cons_self
    have hfresh : clean.any (fun c => c.1 == strip a.1) = false := by
      rw [List.any_eq_false]
      intro c hc
      rw [beq_iff_eq]
      intro heq
      rw [List.map_append, List.map_append, List.append_assoc] at hnodup
      exact (List.nodup_append.mp hnodup).2.2 c.1 (List.mem_map_of_mem hc) (strip a.1) (by simp) heq
    rw [hsplit, ← ih (fun b hb => hvalues b (List.mem_cons_of_mem _ hb))
      (fun b hb => hne b (List.mem_cons_of_mem _ hb)) hnodup]
    show cleanAxes ((a.1, some a.2) :: numbers axes) clean [] = _
    conv_lhs => unfold cleanAxes
    simp only [hempty, hfresh, List.contains_nil, Bool.or_self, Bool.false_eq_true, if_false,
      atLeastZero, if_neg (not_lt.mpr hlow)]
    show (if 1 < a.2 then _ else _) = _
    rw [if_neg (not_lt.mpr hhigh)]

theorem cleanAxes_names {axes clean : List (PyStr × ℝ)}
    {r : List (PyStr × ℝ) × List PyStr} (hclean : (clean.map Prod.fst).Nodup)
    (h : cleanAxes (numbers axes) clean [] = .ok r) :
    (∀ a ∈ axes, strip a.1 ≠ []) ∧ ((clean ++ trimmed axes).map Prod.fst).Nodup := by
  induction axes generalizing clean with
  | nil =>
    refine ⟨by simp, ?_⟩
    rw [show trimmed [] = [] from rfl, List.append_nil]
    exact hclean
  | cons a axes ih =>
    have hsplit : clean ++ trimmed (a :: axes) = (clean ++ [(strip a.1, a.2)]) ++ trimmed axes := by
      simp [trimmed]
    change cleanAxes ((a.1, some a.2) :: numbers axes) clean [] = _ at h
    unfold cleanAxes at h
    simp only at h
    split at h
    · cases h
    · next hempty =>
      split at h
      · cases h
      · next hfresh =>
        obtain ⟨number, hnumber, h⟩ := ok_of_bind h
        have hnum : number = a.2 := by
          unfold atLeastZero at hnumber
          split at hnumber
          · cases hnumber
          · cases hnumber
            rfl
        obtain ⟨_, h⟩ := ok_of_guard h
        rw [hnum] at h
        have hnew : ((clean ++ [(strip a.1, a.2)]).map Prod.fst).Nodup := by
          rw [List.map_append, List.nodup_append]
          refine ⟨hclean, by simp, ?_⟩
          intro x hx y hy heq
          simp only [List.map_cons, List.map_nil, List.mem_singleton] at hy
          obtain ⟨c, hc, rfl⟩ := List.mem_map.mp hx
          apply hfresh
          rw [Bool.or_eq_true, List.any_eq_true]
          exact .inl ⟨c, hc, by rw [beq_iff_eq, heq, hy]⟩
        obtain ⟨hne, hnodup⟩ := ih hnew h
        refine ⟨List.forall_mem_cons.mpr ⟨by simpa using hempty, hne⟩, ?_⟩
        rw [hsplit]
        exact hnodup

theorem strip_strip (s : PyStr) : strip (strip s) = strip s := by
  have hhead := List.head?_dropWhile_not isSpaceChar s
  have hlast := List.head?_dropWhile_not isSpaceChar (s.dropWhile isSpaceChar).reverse
  obtain ⟨t, ht⟩ := List.dropWhile_suffix (l := (s.dropWhile isSpaceChar).reverse) isSpaceChar
  apply strip_of_ends
  · intro c hc
    have hd : s.dropWhile isSpaceChar = strip s ++ t.reverse := by
      have hback := congrArg List.reverse ht
      rw [List.reverse_reverse, List.reverse_append] at hback
      exact hback.symm
    have hc' : (s.dropWhile isSpaceChar).head? = some c := by
      rw [hd, List.head?_append, Option.mem_def.mp hc]
      rfl
    rw [hc'] at hhead
    exact hhead
  · intro c hc
    unfold strip at hc
    rw [List.getLast?_reverse, Option.mem_def] at hc
    rw [hc] at hlast
    exact hlast

/-- Weights on the axes agree with the trimmed names only where these are the names. -/
theorem trimmed_of_sameNames {axes : List (PyStr × ℝ)} {ws : List (PyStr × ℝ)}
    (hperm : (ws.map Prod.fst).Perm (axes.map Prod.fst))
    (h : sameNames ws ((trimmed axes).map Prod.fst) = true) : ∀ a ∈ axes, strip a.1 = a.1 := by
  intro a ha
  unfold sameNames at h
  rw [Bool.and_eq_true, List.all_eq_true] at h
  obtain ⟨w, hw, heq⟩ := List.mem_map.mp (hperm.mem_iff.mpr (List.mem_map_of_mem ha))
  have hmem := List.contains_iff_mem.mp (h.1 w hw)
  rw [heq] at hmem
  obtain ⟨b, hb, hname⟩ := List.mem_map.mp hmem
  obtain ⟨c, _, rfl⟩ := List.mem_map.mp hb
  have hstrip : strip c.1 = a.1 := hname
  rw [← hstrip, strip_strip]

/-! ## §6. Agreement. -/

section Agreement

variable {axes : List (PyStr × ℝ)} {weights : Option (List (PyStr × ℝ))}

/-- An axis is zero, with a weight; or none is zero at all. -/
def LogDefined (axes : List (PyStr × ℝ)) (weights : Option (List (PyStr × ℝ))) : Prop :=
  zeroAxis (weighted axes weights) ∨ ∀ p ∈ weighted axes weights, p.1 ≠ 0

/-- No floor shows: an axis is zero with a weight, or every weighted axis is at least the floor, or
the product is at the cap. -/
def FloorHidden (axes : List (PyStr × ℝ)) (weights : Option (List (PyStr × ℝ))) : Prop :=
  zeroAxis (weighted axes weights) ∨
    (∀ p ∈ weighted axes weights, 0 < p.2 → axisFloor ≤ p.1) ∨
    trustCeiling ≤ geo (weighted axes weights)

/-- The axes as they are cleaned carry the weights of the axes. -/
theorem weighted_trimmed (hnames : weights.isSome → ∀ a ∈ axes, strip a.1 = a.1) :
    (trimmed axes).map (fun a => (a.2, weightOf axes weights a.1)) = weighted axes weights := by
  unfold trimmed weighted
  rw [List.map_map]
  apply List.map_congr_left
  intro a ha
  cases weights with
  | none => rfl
  | some ws =>
    show (a.2, weightOf axes (some ws) (strip a.1)) = _
    rw [hnames rfl a ha]

theorem lambdaAdvisory_ok (h : Numeric axes weights) (hnames : NamesTrimmed axes weights)
    (hlog : LogDefined axes weights) :
    ∃ r, lambdaAdvisory (numbers axes) weights = .ok r ∧ r.value = some (advisory axes weights) := by
  obtain ⟨hne, hnodup, hsome⟩ := hnames
  have hempty : (numbers axes).isEmpty = false := by
    simp [numbers, h.nonempty]
  have hclean : cleanAxes (numbers axes) [] [] = .ok (trimmed axes, []) := by
    have hrun := @cleanAxes_ok axes [] h.values hne (by simpa using hnodup)
    simpa using hrun
  have htrimmed : weights.isSome → (trimmed axes).map Prod.fst = axes.map Prod.fst := by
    intro hs
    unfold trimmed
    rw [List.map_map]
    apply List.map_congr_left
    exact fun a ha => hsome hs a ha
  have hnormalized := normalizeWeights_ok h.weights (py "weights must name exactly the supplied axes")
    ((trimmed axes).map Prod.fst) (by simp [trimmed]) htrimmed
  have hscore := lambdaScore_ok (fun p hp => (weighted_nonneg h p hp).1) hlog
  rw [← weighted_trimmed hsome] at hscore
  have hrun : ∃ r, lambdaAdvisory (numbers axes) weights = .ok r ∧ r.value = some (min trustCeiling
      (geo ((trimmed axes).map (fun a => (a.2, weightOf axes weights a.1))))) := by
    unfold lambdaAdvisory
    rw [hempty, hclean]
    simp only [Bool.false_eq_true, if_false, bind, Except.bind, List.isEmpty_nil, Bool.not_true,
      hnormalized, hscore, pure, Except.pure]
    exact ⟨_, rfl, rfl⟩
  rw [weighted_trimmed hsome] at hrun
  exact hrun

theorem lambdaAdvisory_returns (h : Numeric axes weights) {r : FormulaResult}
    (hr : lambdaAdvisory (numbers axes) weights = .ok r) :
    NamesTrimmed axes weights ∧ LogDefined axes weights := by
  have hempty : (numbers axes).isEmpty = false := by
    simp [numbers, h.nonempty]
  unfold lambdaAdvisory at hr
  rw [hempty] at hr
  simp only [Bool.false_eq_true, if_false] at hr
  obtain ⟨clean, hclean, hr⟩ := ok_of_bind hr
  obtain ⟨hne, hnodup⟩ := cleanAxes_names (by simp) hclean
  rw [List.nil_append] at hnodup
  have hrun := @cleanAxes_ok axes [] h.values hne (by simpa using hnodup)
  rw [List.nil_append] at hrun
  rw [hrun] at hclean
  cases hclean
  simp only [List.isEmpty_nil, Bool.not_true, Bool.false_eq_true, if_false] at hr
  obtain ⟨normalized, hnormalized, hr⟩ := ok_of_bind hr
  have hsome : weights.isSome → ∀ a ∈ axes, strip a.1 = a.1 := by
    intro hs
    cases weights with
    | none => cases hs
    | some ws =>
      unfold normalizeWeights at hnormalized
      by_cases hsame : sameNames ws ((trimmed axes).map Prod.fst) = true
      · exact trimmed_of_sameNames h.weights.2.1 hsame
      · simp [hsame] at hnormalized
  have htrimmed : weights.isSome → (trimmed axes).map Prod.fst = axes.map Prod.fst := by
    intro hs
    unfold trimmed
    rw [List.map_map]
    apply List.map_congr_left
    exact fun a ha => hsome hs a ha
  have hok := normalizeWeights_ok h.weights (py "weights must name exactly the supplied axes")
    ((trimmed axes).map Prod.fst) (by simp [trimmed]) htrimmed
  rw [hok] at hnormalized
  cases hnormalized
  obtain ⟨score, hscore, _⟩ := ok_of_bind hr
  rw [weighted_trimmed hsome] at hscore
  exact ⟨⟨hne, hnodup, hsome⟩, lambdaScore_raises hscore⟩

theorem clamp01_unit {x : ℝ} (h : 0 ≤ x ∧ x ≤ 1) : clamp01 x = x := by
  unfold clamp01
  rw [max_eq_right h.1, min_eq_right h.2]

/-- The engine always returns: the advisory of the floored axes. -/
theorem weightedGeometricMean_iff (h : Numeric axes weights) :
    weightedGeometricMean axes weights = .ok (advisory axes weights) ↔ FloorHidden axes weights := by
  have hempty : axes.isEmpty = false := by simp [h.nonempty]
  have hclean : axes.map (fun a => (a.1, clamp01 a.2)) = axes := by
    calc axes.map (fun a => (a.1, clamp01 a.2)) = axes.map id := by
          apply List.map_congr_left
          intro a ha
          rw [clamp01_unit (h.values a ha)]
          rfl
      _ = axes := List.map_id axes
  have hnormalized := normalizeWeights_ok h.weights (py "weights must name the same axes")
    (axes.map Prod.fst) (by simp) (fun _ => rfl)
  have hrun : weightedGeometricMean axes weights
      = (engineScore (weighted axes weights)).map (min trustCeiling) := by
    unfold weightedGeometricMean
    rw [hempty, hclean]
    simp only [Bool.false_eq_true, if_false, bind, Except.bind, hnormalized, pure, Except.pure]
    rfl
  rw [hrun]
  unfold FloorHidden advisory axisFloor
  by_cases hz : zeroAxis (weighted axes weights)
  · rw [engineScore_zero hz]
    exact iff_of_true rfl (.inl hz)
  · rw [engineScore_ok hz]
    have hcapped := @capped_floored _ (weighted_nonneg h) hz (10 ^ (-15 : ℤ)) trustCeiling
      (by positivity)
    constructor
    · intro heq
      exact .inr (hcapped.mp (Except.ok.inj heq))
    · intro hor
      exact congrArg Except.ok (hcapped.mpr (hor.resolve_left hz))

/-- Both implementations, and the health of a journey, return the advisory. -/
def Agree (axes : List (PyStr × ℝ)) (weights : Option (List (PyStr × ℝ))) : Prop :=
  (∃ r, lambdaAdvisory (numbers axes) weights = .ok r ∧ r.value = some (advisory axes weights)) ∧
    (∃ r, journeyHealth (numbers axes) weights = .ok r ∧ r.value = some (advisory axes weights)) ∧
    weightedGeometricMean axes weights = .ok (advisory axes weights)

theorem agree_iff (h : Numeric axes weights) :
    Agree axes weights ↔
      NamesTrimmed axes weights ∧ LogDefined axes weights ∧ FloorHidden axes weights := by
  constructor
  · rintro ⟨⟨r, hr, _⟩, _, hengine⟩
    obtain ⟨hnames, hlog⟩ := lambdaAdvisory_returns h hr
    exact ⟨hnames, hlog, (weightedGeometricMean_iff h).mp hengine⟩
  · rintro ⟨hnames, hlog, hfloor⟩
    obtain ⟨r, hr, hvalue⟩ := lambdaAdvisory_ok h hnames hlog
    refine ⟨⟨r, hr, hvalue⟩, ⟨{ r with
      name := py "journey_health"
      unit := py "score"
      proofStatus := py "DECLARED_WEIGHTED_COMPOSITION" }, ?_, hvalue⟩,
      (weightedGeometricMean_iff h).mpr hfloor⟩
    unfold journeyHealth
    rw [hr]
    rfl

/-- The weights, all multiplied. -/
def rescaled (c : ℝ) (weights : Option (List (PyStr × ℝ))) : Option (List (PyStr × ℝ)) :=
  weights.map (fun ws => ws.map (fun w => (w.1, c * w.2)))

theorem weightOf_rescaled {c : ℝ} (hc : 0 < c) (name : PyStr) :
    weightOf axes (rescaled c weights) name = weightOf axes weights name := by
  cases weights with
  | none => rfl
  | some ws =>
    have hsum : ((ws.map (fun w => (w.1, c * w.2))).map Prod.snd).sum = c * (ws.map Prod.snd).sum := by
      rw [List.map_map, ← List.sum_map_mul_left]
      rfl
    have hraw : rawWeight (ws.map (fun w => (w.1, c * w.2))) name = c * rawWeight ws name := by
      unfold rawWeight
      induction ws with
      | nil => simp
      | cons w ws ih =>
        rw [List.map_cons, List.lookup_cons, List.lookup_cons]
        cases name == w.1 with
        | true => rfl
        | false => exact ih (by rw [List.map_map, ← List.sum_map_mul_left]; rfl)
    show rawWeight (ws.map (fun w => (w.1, c * w.2))) name
      / ((ws.map (fun w => (w.1, c * w.2))).map Prod.snd).sum = _
    rw [hraw, hsum, mul_div_mul_left _ _ hc.ne']
    rfl

theorem advisory_zero_iff (h : Numeric axes weights) :
    advisory axes weights = 0 ↔ zeroAxis (weighted axes weights) := by
  rw [← geo_eq_zero_iff (weighted_nonneg h)]
  have hcap : (0 : ℝ) < trustCeiling := by
    unfold trustCeiling
    norm_num
  unfold advisory
  constructor
  · intro heq
    rcases min_choice trustCeiling (geo (weighted axes weights)) with hmin | hmin
    · rw [hmin] at heq
      exact absurd heq hcap.ne'
    · rwa [hmin] at heq
  · intro heq
    rw [heq, min_eq_right hcap.le]

theorem advisory_mono (h : Numeric axes weights) (raise : PyStr × ℝ → ℝ)
    (hraise : ∀ a ∈ axes, a.2 ≤ raise a) :
    advisory axes weights ≤ advisory (axes.map (fun a => (a.1, raise a))) weights := by
  have hweight : ∀ name, weightOf (axes.map (fun a => (a.1, raise a))) weights name
      = weightOf axes weights name := by
    intro name
    cases weights with
    | none => simp [weightOf]
    | some ws => rfl
  unfold advisory weighted
  rw [List.map_map]
  apply min_le_min_left
  have hmono := @geo_mono _ axes Prod.snd raise (fun a => weightOf axes weights a.1)
    (fun a ha => ⟨(h.values a ha).1, hraise a ha, weightOf_nonneg h.weights a.1⟩)
  refine hmono.trans_eq ?_
  congr 1
  apply List.map_congr_left
  intro a ha
  show _ = (raise a, weightOf _ weights a.1)
  rw [hweight]

end Agreement

/-- **When both implementations compute the same function.**  They return the advisory exactly where
the names are trimmed, no axis is zero without weight unless one is zero with it, and no floor shows.
The advisory is zero exactly where a positively weighted axis is, grows with every axis and does not
depend on the scale of the weights. -/
theorem advisory_agreement (axes : List (PyStr × ℝ)) (weights : Option (List (PyStr × ℝ)))
    (h : Numeric axes weights) :
    (Agree axes weights ↔
      NamesTrimmed axes weights ∧ LogDefined axes weights ∧ FloorHidden axes weights) ∧
    (advisory axes weights = 0 ↔ zeroAxis (weighted axes weights)) ∧
    (∀ raise : PyStr × ℝ → ℝ, (∀ a ∈ axes, a.2 ≤ raise a) →
      advisory axes weights ≤ advisory (axes.map (fun a => (a.1, raise a))) weights) ∧
    ∀ c : ℝ, 0 < c → advisory axes (rescaled c weights) = advisory axes weights := by
  refine ⟨agree_iff h, advisory_zero_iff h, advisory_mono h, ?_⟩
  intro c hc
  unfold advisory weighted
  simp only [weightOf_rescaled hc]

/-- A half and a zero that has no weight. -/
theorem advisory_raises : ¬ ∀ (axes : List (PyStr × ℝ)) (weights : Option (List (PyStr × ℝ))),
    Numeric axes weights → Agree axes weights := by
  intro h
  have hnumeric : Numeric [(py "a", 1), (py "b", 0)] (some [(py "a", 1), (py "b", 0)]) := {
    nonempty := by simp
    names := by simp
    values := by simp
    weights := ⟨by simp, .refl _, by simp, by simp⟩ }
  have hlog := ((agree_iff hnumeric).mp (h _ _ hnumeric)).2.1
  unfold LogDefined weighted weightOf rawWeight at hlog
  rcases hlog with hzero | hnone
  · obtain ⟨p, hp, hvalue, hweight⟩ := hzero
    simp [List.lookup_cons, py_beq] at hp
    rcases hp with rfl | rfl
    · simp at hvalue
    · simp at hweight
  · exact hnone (0, 0) (by simp [List.lookup_cons, py_beq]) rfl

theorem advisory_agreement_sample : Agree [(py "latency", 1)] none := by
  have hnumeric : Numeric [(py "latency", 1)] none := {
    nonempty := by simp
    names := by simp
    values := by simp
    weights := trivial }
  refine (advisory_agreement [(py "latency", 1)] none hnumeric).1.mpr ⟨⟨?_, ?_, ?_⟩, ?_, ?_⟩
  · have hstrip : strip (py "latency") ≠ [] := by decide
    simpa using hstrip
  · simp [trimmed]
  · nofun
  · right
    simp [weighted]
  · right
    left
    intro p hp _
    simp only [weighted, List.map_cons, List.map_nil, List.mem_singleton] at hp
    rw [hp]
    unfold axisFloor
    norm_num

end Lyte
