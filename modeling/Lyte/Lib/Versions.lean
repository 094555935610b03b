import Mathlib.Data.Finset.Max
import Mathlib.Data.Int.Interval
import Mathlib.Order.Interval.Finset.Basic

/-
  Lyte.Lib.Versions — version numbers without gaps.

  Where a version is only ever written behind one that is there, and no version
  is written twice, the versions are 1 … n.  `Grounded` is what such writers
  keep; `Grounded.perm` is what it means.
-/

namespace Versions

/-- 1 … n. -/
def upTo (n : Nat) : List Int := (List.range n).map (fun i : Nat => (i : Int) + 1)

theorem mem_upTo {n : Nat} {v : Int} : v ∈ upTo n ↔ 1 ≤ v ∧ v ≤ n := by
  unfold upTo
  rw [List.mem_map]
  constructor
  · intro h
    obtain ⟨i, hi, hv⟩ := h
    have hlt := List.mem_range.mp hi
    omega
  · intro h
    refine ⟨(v - 1).toNat, List.mem_range.mpr ?_, ?_⟩
    · omega
    · omega

theorem nodup_upTo (n : Nat) : (upTo n).Nodup := by
  unfold upTo
  refine List.Nodup.map ?_ List.nodup_range
  intro i j hij
  have h : (i : Int) + 1 = (j : Int) + 1 := hij
  omega

/-- No number occurs twice, and below every number but 1 is the one before it. -/
structure Grounded (l : List Int) : Prop where
  nodup : l.Nodup
  pred : ∀ v ∈ l, v = 1 ∨ v - 1 ∈ l

namespace Grounded

variable {l : List Int}

theorem pos (h : Grounded l) : ∀ v ∈ l, 1 ≤ v := by
  intro v hv
  -- the least number has none before it, so that it is 1
  obtain ⟨m, hm, hmin⟩ := l.toFinset.exists_min_image id ⟨v, List.mem_toFinset.mpr hv⟩
  have hle : m ≤ v := hmin v (List.mem_toFinset.mpr hv)
  rcases h.pred m (List.mem_toFinset.mp hm) with h1 | hp
  · omega
  · have hlt : m ≤ m - 1 := hmin (m - 1) (List.mem_toFinset.mpr hp)
    omega

theorem below (h : Grounded l) {v : Int} (hv : v ∈ l) (n : Nat) (hn : 1 ≤ v - n) : v - n ∈ l := by
  induction n with
  | zero => simpa using hv
  | succ n ih =>
    have hprev : v - n ∈ l := ih (by omega)
    rcases h.pred _ hprev with h1 | hp
    · omega
    · have he : v - (n + 1 : Nat) = v - n - 1 := by omega
      rw [he]
      exact hp

/-- **The versions are 1 … n.** -/
theorem perm (h : Grounded l) : l.Perm (upTo l.length) := by
  cases hl : l with
  | nil => exact List.Perm.refl _
  | cons x xs =>
    rw [← hl]
    have hx : x ∈ l := by rw [hl]; exact List.mem_cons_self
    obtain ⟨m, hm, hmax⟩ := l.toFinset.exists_max_image id ⟨x, List.mem_toFinset.mpr hx⟩
    have hml := List.mem_toFinset.mp hm
    have hpos := h.pos m hml
    have hset : l.toFinset = (upTo m.toNat).toFinset := by
      ext v
      rw [List.mem_toFinset, List.mem_toFinset, mem_upTo]
      constructor
      · intro hv
        have hle : v ≤ m := hmax v (List.mem_toFinset.mpr hv)
        have hv1 := h.pos v hv
        omega
      · intro hv
        have hb := h.below hml (m - v).toNat (by omega)
        have he : m - ((m - v).toNat : Int) = v := by omega
        rwa [he] at hb
    have hperm := (List.perm_of_nodup_nodup_toFinset_eq h.nodup (nodup_upTo _) hset)
    have hlen : l.length = m.toNat := by
      rw [hperm.length_eq]
      simp [upTo]
    rw [hlen]
    exact hperm

theorem mem_iff (h : Grounded l) {v : Int} : v ∈ l ↔ 1 ≤ v ∧ v ≤ l.length := by
  rw [h.perm.mem_iff, mem_upTo]

/-- **The only new version** behind one that is there is the one behind them
all. -/
theorem next (h : Grounded l) {v : Int} (hv : v = 0 ∨ v ∈ l) (hnew : v + 1 ∉ l) :
    v = l.length := by
  rw [h.mem_iff] at hnew
  rcases hv with rfl | hv
  · omega
  · rw [h.mem_iff] at hv
    omega

end Grounded

end Versions
