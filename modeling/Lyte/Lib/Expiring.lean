import Mathlib.Order.Lattice
import Mathlib.Data.List.Nodup

/-
  Lyte.Lib.Expiring — a table whose entries expire.

  Every key has at most one entry, with a value and the moment at which it
  expires.  `prune now` drops what has expired by `now`; `set` writes an entry
  where the key stands, or behind the others.  What a reader may still learn
  from a table at `now` is `prune now` of it, so two tables that agree there
  are the same from `now` on (`prune_prune`).

  `restrict p` is the part of a table under the keys that satisfy `p`.  It
  commutes with every operation, which makes tables that several parties share
  fall apart into the parts of each, as long as their keys differ.
-/

namespace Expiring

variable {κ α τ : Type}

/-- A table of expiring entries: key, value and expiry. -/
structure Table (κ α τ : Type) where
  entries : List (κ × α × τ)
  nodup : (entries.map Prod.fst).Nodup

namespace Table

@[ext] theorem ext {x y : Table κ α τ} (h : x.entries = y.entries) : x = y := by
  cases x
  cases y
  cases h
  rfl

def empty : Table κ α τ := ⟨[], List.nodup_nil⟩

def size (x : Table κ α τ) : Nat := x.entries.length

theorem nodup_filter (x : Table κ α τ) (q : κ × α × τ → Bool) :
    ((x.entries.filter q).map Prod.fst).Nodup :=
  x.nodup.sublist (List.filter_sublist.map Prod.fst)

/-! ## §1. Restriction. -/

/-- The entries under the keys that satisfy `p`. -/
def restrict (p : κ → Bool) (x : Table κ α τ) : Table κ α τ :=
  ⟨x.entries.filter (fun e => p e.1), x.nodup_filter _⟩

theorem restrict_size (p : κ → Bool) (x : Table κ α τ) : (x.restrict p).size ≤ x.size :=
  List.length_filter_le _ x.entries

theorem filter_key {p : κ → Bool} {e : κ × α × τ} {entries : List (κ × α × τ)}
    (h : p e.1 = true) :
    (e :: entries).filter (fun e => p e.1) = e :: entries.filter (fun e => p e.1) :=
  List.filter_cons_of_pos h

theorem filter_key_ne {p : κ → Bool} {e : κ × α × τ} {entries : List (κ × α × τ)}
    (h : p e.1 ≠ true) :
    (e :: entries).filter (fun e => p e.1) = entries.filter (fun e => p e.1) :=
  List.filter_cons_of_neg h

section Get

variable [DecidableEq κ]

/-- The entry of a key. -/
def get? (x : Table κ α τ) (k : κ) : Option (α × τ) := x.entries.lookup k

theorem lookup_filter {entries : List (κ × α × τ)} {p : κ → Bool} {k : κ} (h : p k = true) :
    (entries.filter (fun e => p e.1)).lookup k = entries.lookup k := by
  induction entries with
  | nil => rfl
  | cons e entries ih =>
    obtain ⟨k', v⟩ := e
    by_cases hk : k = k'
    · subst hk
      rw [filter_key h, List.lookup_cons_self, List.lookup_cons_self]
    · have hne : (k == k') = false := beq_eq_false_iff_ne.mpr hk
      rw [List.lookup_cons, hne]
      by_cases hp : p k' = true
      · rw [filter_key hp, List.lookup_cons, hne]
        exact ih
      · rw [filter_key_ne hp]
        exact ih

theorem get?_restrict {p : κ → Bool} {k : κ} (x : Table κ α τ) (h : p k = true) :
    (x.restrict p).get? k = x.get? k :=
  lookup_filter h

theorem lookup_eq_some_iff {entries : List (κ × α × τ)} (hnd : (entries.map Prod.fst).Nodup)
    {k : κ} {v : α × τ} : entries.lookup k = some v ↔ (k, v) ∈ entries := by
  induction entries with
  | nil => simp
  | cons e entries ih =>
    obtain ⟨k', v'⟩ := e
    rw [List.map_cons, List.nodup_cons] at hnd
    by_cases hk : k = k'
    · subst hk
      rw [List.lookup_cons_self]
      constructor
      · intro h
        cases h
        exact List.mem_cons_self
      · intro h
        rcases List.mem_cons.mp h with heq | hmem
        · cases heq
          rfl
        · exact absurd (List.mem_map_of_mem hmem) hnd.1
    · have hne : (k == k') = false := beq_eq_false_iff_ne.mpr hk
      rw [List.lookup_cons, hne]
      simp only
      rw [ih hnd.2, List.mem_cons]
      constructor
      · exact .inr
      · rintro (heq | hmem)
        · cases heq
          exact absurd rfl hk
        · exact hmem

theorem get?_eq_some_iff (x : Table κ α τ) {k : κ} {v : α × τ} :
    x.get? k = some v ↔ (k, v) ∈ x.entries :=
  lookup_eq_some_iff x.nodup

/-! ## §2. Writing an entry. -/

/-- `entries[k] = v`: in place, or behind the others. -/
def setEntries (k : κ) (v : α × τ) : List (κ × α × τ) → List (κ × α × τ)
  | [] => [(k, v)]
  | e :: entries => if e.1 = k then (k, v) :: entries else e :: setEntries k v entries

theorem setEntries_keys (k : κ) (v : α × τ) (entries : List (κ × α × τ)) :
    ∀ k', k' ∈ (setEntries k v entries).map Prod.fst → k' = k ∨ k' ∈ entries.map Prod.fst := by
  induction entries with
  | nil =>
    intro k' h
    exact .inl (by simpa [setEntries] using h)
  | cons e entries ih =>
    intro k' h
    unfold setEntries at h
    by_cases he : e.1 = k
    · rw [if_pos he, List.map_cons, List.mem_cons] at h
      rcases h with h | h
      · exact .inl h
      · exact .inr (List.mem_cons_of_mem _ h)
    · rw [if_neg he, List.map_cons, List.mem_cons] at h
      rcases h with h | h
      · exact .inr (by rw [h]; exact List.mem_cons_self)
      · rcases ih k' h with h | h
        · exact .inl h
        · exact .inr (List.mem_cons_of_mem _ h)

theorem setEntries_nodup (k : κ) (v : α × τ) {entries : List (κ × α × τ)}
    (hnd : (entries.map Prod.fst).Nodup) : ((setEntries k v entries).map Prod.fst).Nodup := by
  induction entries with
  | nil => simp [setEntries]
  | cons e entries ih =>
    rw [List.map_cons, List.nodup_cons] at hnd
    unfold setEntries
    by_cases he : e.1 = k
    · rw [if_pos he, List.map_cons, List.nodup_cons, ← he]
      exact hnd
    · rw [if_neg he, List.map_cons, List.nodup_cons]
      refine ⟨fun hmem => ?_, ih hnd.2⟩
      rcases setEntries_keys k v entries e.1 hmem with h | h
      · exact he h
      · exact hnd.1 h

/-- `x[k] = (v, expires)`. -/
def set (x : Table κ α τ) (k : κ) (v : α) (expires : τ) : Table κ α τ :=
  ⟨setEntries k (v, expires) x.entries, setEntries_nodup k (v, expires) x.nodup⟩

theorem lookup_setEntries_self (k : κ) (v : α × τ) (entries : List (κ × α × τ)) :
    (setEntries k v entries).lookup k = some v := by
  induction entries with
  | nil => exact List.lookup_cons_self
  | cons e entries ih =>
    unfold setEntries
    by_cases he : e.1 = k
    · rw [if_pos he]
      exact List.lookup_cons_self
    · have hne : (k == e.1) = false := beq_eq_false_iff_ne.mpr (fun h => he h.symm)
      rw [if_neg he, List.lookup_cons, hne]
      exact ih

@[simp] theorem get?_set_self (x : Table κ α τ) (k : κ) (v : α) (expires : τ) :
    (x.set k v expires).get? k = some (v, expires) :=
  lookup_setEntries_self k (v, expires) x.entries

theorem lookup_setEntries_ne {k k' : κ} (h : k' ≠ k) (v : α × τ) (entries : List (κ × α × τ)) :
    (setEntries k v entries).lookup k' = entries.lookup k' := by
  have hne : (k' == k) = false := beq_eq_false_iff_ne.mpr h
  induction entries with
  | nil =>
    show ([(k, v)] : List _).lookup k' = none
    rw [List.lookup_cons, hne]
    rfl
  | cons e entries ih =>
    obtain ⟨k₁, v₁⟩ := e
    unfold setEntries
    by_cases he : k₁ = k
    · rw [if_pos he, List.lookup_cons, List.lookup_cons, he, hne]
    · rw [if_neg he, List.lookup_cons, List.lookup_cons, ih]

theorem get?_set_ne {k k' : κ} (h : k' ≠ k) (x : Table κ α τ) (v : α) (expires : τ) :
    (x.set k v expires).get? k' = x.get? k' :=
  lookup_setEntries_ne h (v, expires) x.entries

theorem filter_setEntries (p : κ → Bool) (k : κ) (v : α × τ) (entries : List (κ × α × τ)) :
    (setEntries k v entries).filter (fun e => p e.1) =
      if p k then setEntries k v (entries.filter (fun e => p e.1))
      else entries.filter (fun e => p e.1) := by
  induction entries with
  | nil =>
    by_cases hp : p k = true
    · rw [if_pos hp]
      exact filter_key hp
    · rw [if_neg hp]
      exact filter_key_ne hp
  | cons e entries ih =>
    rw [setEntries]
    by_cases he : e.1 = k
    · rw [if_pos he]
      by_cases hp : p k = true
      · have hpe : p e.1 = true := by rw [he]; exact hp
        rw [if_pos hp, filter_key hp, filter_key hpe, setEntries, if_pos he]
      · have hpe : ¬ p e.1 = true := by rw [he]; exact hp
        rw [if_neg hp, filter_key_ne hp, filter_key_ne hpe]
    · rw [if_neg he]
      by_cases hpe : p e.1 = true
      · rw [filter_key hpe, filter_key hpe, ih]
        split
        · rw [setEntries, if_neg he]
        · rfl
      · rw [filter_key_ne hpe, filter_key_ne hpe, ih]

/-- An entry under a key of the part is written in the part. -/
theorem restrict_set {p : κ → Bool} {k : κ} (x : Table κ α τ) (h : p k = true) (v : α)
    (expires : τ) : (x.set k v expires).restrict p = (x.restrict p).set k v expires := by
  apply ext
  show (setEntries k (v, expires) x.entries).filter (fun e => p e.1) = _
  rw [filter_setEntries, if_pos h]
  rfl

/-- An entry under another key leaves the part alone. -/
theorem restrict_set_ne {p : κ → Bool} {k : κ} (x : Table κ α τ) (h : p k = false) (v : α)
    (expires : τ) : (x.set k v expires).restrict p = x.restrict p := by
  apply ext
  show (setEntries k (v, expires) x.entries).filter (fun e => p e.1) = _
  rw [filter_setEntries, if_neg (by rw [h]; exact Bool.false_ne_true)]
  rfl

end Get

/-! ## §3. Expiry. -/

section Expiry

variable [LinearOrder τ]

/-- What has not expired by `now`. -/
def prune (now : τ) (x : Table κ α τ) : Table κ α τ :=
  ⟨x.entries.filter (fun e => decide (now < e.2.2)), x.nodup_filter _⟩

/-- **A table that was pruned reads as before**, at that moment and later. -/
theorem prune_prune {now later : τ} (h : now ≤ later) (x : Table κ α τ) :
    (x.prune now).prune later = x.prune later := by
  apply ext
  show (x.entries.filter _).filter _ = x.entries.filter _
  rw [List.filter_filter]
  refine List.filter_congr (fun e _ => ?_)
  by_cases he : later < e.2.2
  · have hnow : now < e.2.2 := lt_of_le_of_lt h he
    simp [he, hnow]
  · simp [he]

/-- Tables that agree at a moment agree from then on. -/
theorem prune_congr {now later : τ} {x y : Table κ α τ} (h : now ≤ later)
    (hxy : x.prune now = y.prune now) : x.prune later = y.prune later := by
  rw [← prune_prune h x, hxy, prune_prune h y]

theorem restrict_prune (p : κ → Bool) (now : τ) (x : Table κ α τ) :
    (x.prune now).restrict p = (x.restrict p).prune now := by
  apply ext
  show (x.entries.filter _).filter _ = (x.entries.filter _).filter _
  rw [List.filter_filter, List.filter_filter]
  exact List.filter_congr (fun e _ => Bool.and_comm _ _)

theorem mem_prune {now : τ} {x : Table κ α τ} {e : κ × α × τ} :
    e ∈ (x.prune now).entries ↔ e ∈ x.entries ∧ now < e.2.2 := by
  show e ∈ x.entries.filter _ ↔ _
  rw [List.mem_filter, decide_eq_true_eq]

variable [DecidableEq κ]

/-- An entry that has not expired is still there. -/
theorem get?_prune {now : τ} {x : Table κ α τ} {k : κ} {v : α} {expires : τ} :
    (x.prune now).get? k = some (v, expires) ↔ x.get? k = some (v, expires) ∧ now < expires := by
  rw [get?_eq_some_iff, get?_eq_some_iff, mem_prune]

/-- Writing an entry that outlives `now` commutes with pruning at `now`. -/
theorem prune_set {now : τ} (x : Table κ α τ) (k : κ) (v : α) {expires : τ} (h : now < expires) :
    ((x.prune now).set k v expires).prune now = (x.prune now).set k v expires := by
  apply ext
  show (setEntries k (v, expires) (x.prune now).entries).filter _ = setEntries k (v, expires) _
  refine List.filter_eq_self.mpr (fun e he => ?_)
  have hlive : ∀ (entries : List (κ × α × τ)), (∀ e ∈ entries, now < e.2.2) →
      ∀ e ∈ setEntries k (v, expires) entries, now < e.2.2 := by
    intro entries
    induction entries with
    | nil =>
      intro _ e he
      rw [setEntries, List.mem_singleton] at he
      rw [he]
      exact h
    | cons e' entries ih =>
      intro hall e he
      unfold setEntries at he
      by_cases hk : e'.1 = k
      · rw [if_pos hk] at he
        rcases List.mem_cons.mp he with rfl | he
        · exact h
        · exact hall e (List.mem_cons_of_mem _ he)
      · rw [if_neg hk] at he
        rcases List.mem_cons.mp he with rfl | he
        · exact hall _ List.mem_cons_self
        · exact ih (fun e he => hall e (List.mem_cons_of_mem _ he)) e he
  exact decide_eq_true (hlive _ (fun e he => (mem_prune.mp he).2) e he)

end Expiry

end Table

end Expiring
