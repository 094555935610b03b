import Mathlib.Data.List.Dedup

/-
  Lyte.Lib.KeyedLog — an append-only log with a primary key.

  `insertOrIgnore` adds a row whose key is new and leaves the log alone
  otherwise.  Whatever is inserted in whatever order, no key is there twice, and
  the row under a key is one of those that were inserted with it:

      insertAll_nodup   keys are unique;
      key_insertAll     exactly the inserted keys are there.

  `Descending` is ORDER BY … DESC with any choice among ties; the first rows of
  such a list are the greatest (`take_greatest`).
-/

namespace KeyedLog

/-! ## §1. Inserting. -/

section Insert

variable {α κ : Type} [DecidableEq κ] (key : α → κ)

/-- `INSERT OR IGNORE`. -/
def insertOrIgnore (rows : List α) (r : α) : List α :=
  if key r ∈ rows.map key then rows else rows ++ [r]

def insertAll (rows rs : List α) : List α := rs.foldl (insertOrIgnore key) rows

variable {key}

theorem insertOrIgnore_of_mem {rows : List α} {r : α} (h : key r ∈ rows.map key) :
    insertOrIgnore key rows r = rows := if_pos h

theorem insertOrIgnore_nodup {rows : List α} (hn : (rows.map key).Nodup) (r : α) :
    ((insertOrIgnore key rows r).map key).Nodup := by
  unfold insertOrIgnore
  by_cases h : key r ∈ rows.map key
  · rw [if_pos h]
    exact hn
  · rw [if_neg h, List.map_append, List.map_singleton, List.nodup_append]
    refine ⟨hn, List.nodup_singleton _, ?_⟩
    intro a ha b hb heq
    rw [heq, List.mem_singleton.mp hb] at ha
    exact h ha

theorem key_insertOrIgnore {rows : List α} {r : α} {k : κ} :
    k ∈ (insertOrIgnore key rows r).map key ↔ k ∈ rows.map key ∨ k = key r := by
  unfold insertOrIgnore
  by_cases h : key r ∈ rows.map key
  · rw [if_pos h]
    constructor
    · exact Or.inl
    · intro hk
      rcases hk with hk | hk
      · exact hk
      · rw [hk]
        exact h
  · rw [if_neg h, List.map_append, List.mem_append, List.map_singleton, List.mem_singleton]

theorem mem_insertOrIgnore {rows : List α} {r x : α} (h : x ∈ insertOrIgnore key rows r) :
    x ∈ rows ∨ x = r := by
  unfold insertOrIgnore at h
  by_cases hk : key r ∈ rows.map key
  · rw [if_pos hk] at h
    exact .inl h
  · rw [if_neg hk, List.mem_append, List.mem_singleton] at h
    exact h

/-- **No key is there twice.** -/
theorem insertAll_nodup {rows : List α} (hn : (rows.map key).Nodup) (rs : List α) :
    ((insertAll key rows rs).map key).Nodup := by
  induction rs generalizing rows with
  | nil => exact hn
  | cons r rs ih => exact ih (insertOrIgnore_nodup hn r)

/-- **Exactly the inserted keys are there.** -/
theorem key_insertAll {rows rs : List α} {k : κ} :
    k ∈ (insertAll key rows rs).map key ↔ k ∈ rows.map key ∨ k ∈ rs.map key := by
  induction rs generalizing rows with
  | nil => simp [insertAll]
  | cons r rs ih =>
    show k ∈ (insertAll key (insertOrIgnore key rows r) rs).map key ↔ _
    rw [ih, key_insertOrIgnore, List.map_cons, List.mem_cons, or_assoc]

theorem mem_insertAll {rows rs : List α} {x : α} (h : x ∈ insertAll key rows rs) :
    x ∈ rows ∨ x ∈ rs := by
  induction rs generalizing rows with
  | nil => exact .inl h
  | cons r rs ih =>
    rcases ih h with h | h
    · rcases mem_insertOrIgnore h with h | h
      · exact .inl h
      · rw [h]
        exact .inr List.mem_cons_self
    · exact .inr (List.mem_cons_of_mem _ h)

end Insert

/-! ## §2. The greatest rows. -/

section Greatest

variable {α β : Type} [LE β]

/-- `ORDER BY time DESC`: rows in descending order, ties as the engine likes. -/
structure Descending (time : α → β) where
  order : List α → List α
  perm : ∀ rows, (order rows).Perm rows
  sorted : ∀ rows, (order rows).Pairwise (fun a b => time b ≤ time a)

/-- **The first rows are the greatest.** -/
theorem take_greatest {time : α → β} {rows : List α}
    (h : rows.Pairwise (fun a b => time b ≤ time a)) (n : Nat) {x y : α} (hx : x ∈ rows.take n)
    (hy : y ∈ rows) (hout : y ∉ rows.take n) : time y ≤ time x := by
  rw [← List.take_append_drop n rows] at h hy
  have hcross := (List.pairwise_append.mp h).2.2
  rcases List.mem_append.mp hy with hy | hy
  · exact absurd hy hout
  · exact hcross x hx y hy

end Greatest

end KeyedLog
