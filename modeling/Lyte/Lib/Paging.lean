import Mathlib.Data.List.Dedup
import Mathlib.Data.List.Sort

/-
  Lyte.Lib.Paging — listings that are read page by page.

  `portion` is OFFSET and LIMIT; `Pages.eq` says that pages read one behind the
  other are the part of the listing that they span.

  A table keeps every version of its entities.  `greatest` is the grouped query
  over it and `joinedRows` the join with it:

      mem_joinedRows             the rows of the greatest rank of their key,
      joinedRows_pairwise        one for each key,
      Order.sort_increasing  which ORDER BY puts in strictly increasing order.
-/

namespace Paging

variable {α κ : Type}

/-! ## §1. Pages. -/

/-- `OFFSET offset LIMIT limit`. -/
def portion (l : List α) (offset limit : Nat) : List α := (l.drop offset).take limit

theorem getElem?_portion (l : List α) (offset limit j : Nat) :
    (portion l offset limit)[j]? = if j < limit then l[offset + j]? else none := by
  unfold portion
  rw [List.getElem?_take]
  split
  · rw [List.getElem?_drop]
  · rfl

theorem portion_append (l : List α) (offset limit rest : Nat) :
    portion l offset limit ++ portion l (offset + limit) rest = portion l offset (limit + rest) := by
  unfold portion
  rw [List.take_add, List.drop_drop]

theorem portion_all {l : List α} {limit : Nat} (h : l.length ≤ limit) : portion l 0 limit = l := by
  unfold portion
  rw [List.drop_zero, List.take_of_length_le h]

/-- Pages that are read one behind the other, from an offset to another one. -/
inductive Pages (read : Nat → Nat → List α → Prop) : Nat → Nat → List α → Prop
  | done {offset} : Pages read offset offset []
  | next {offset limit stop p rest} : read offset limit p →
      Pages read (offset + limit) stop rest → Pages read offset stop (p ++ rest)

/-- **Consecutive pages are the part of the listing that they span.** -/
theorem Pages.eq {read : Nat → Nat → List α → Prop} {l : List α}
    (hread : ∀ offset limit p, read offset limit p → p = portion l offset limit)
    {offset stop : Nat} {ps : List α} (h : Pages read offset stop ps) :
    offset ≤ stop ∧ ps = portion l offset (stop - offset) := by
  induction h with
  | done => simp [portion]
  | @next offset limit stop p rest hp _ ih =>
    obtain ⟨hle, hrest⟩ := ih
    refine ⟨by omega, ?_⟩
    have hspan : stop - offset = limit + (stop - (offset + limit)) := by omega
    rw [hread _ _ _ hp, hrest, hspan, portion_append]

/-- Following the next offsets: each read returns a page and whether there is more, and the
next one starts where the page ends. -/
inductive Walk (read : Nat → List α → Bool → Prop) : Nat → List α → Prop
  | last {offset items} : read offset items false → Walk read offset items
  | more {offset items rest} : read offset items true →
      Walk read (offset + items.length) rest → Walk read offset (items ++ rest)

section Walk

variable {read : Nat → List α → Bool → Prop} {l : List α}

/-- **A walk visits the rest of the listing**, where the reads are pages of it and say
truthfully whether there is more. -/
theorem Walk.eq (hread : ∀ offset items more, read offset items more →
      (∃ limit, items = portion l offset limit) ∧
        (more = true ↔ offset + items.length < l.length))
    {offset : Nat} {ps : List α} (h : Walk read offset ps) : ps = l.drop offset := by
  have hlength : ∀ offset limit, (portion l offset limit).length = min limit (l.length - offset) := by
    intro offset limit
    unfold portion
    rw [List.length_take, List.length_drop]
  induction h with
  | @last offset items hlast =>
    obtain ⟨⟨limit, rfl⟩, hmore⟩ := hread _ _ _ hlast
    have hend : ¬ offset + (portion l offset limit).length < l.length := by
      intro hlt
      cases hmore.mpr hlt
    unfold portion
    apply List.take_of_length_le
    rw [hlength] at hend
    rw [List.length_drop]
    omega
  | @more offset items rest hpage _ ih =>
    obtain ⟨⟨limit, hitems⟩, _⟩ := hread _ _ _ hpage
    have hprefix : items = (l.drop offset).take items.length := by
      rw [hitems]
      unfold portion
      rw [List.length_take, List.take_eq_take_iff]
      omega
    rw [ih, ← List.drop_drop]
    calc items ++ (l.drop offset).drop items.length
        = (l.drop offset).take items.length ++ (l.drop offset).drop items.length := by
          rw [← hprefix]
      _ = l.drop offset := List.take_append_drop _ _

/-- A walk comes to its end, where every read up to a bound behind the listing answers. -/
theorem Walk.exists (limit bound : Nat) (hlimit : 1 ≤ limit) (hbound : l.length ≤ bound)
    (hread : ∀ offset, offset ≤ bound → read offset (portion l offset limit)
      (decide (offset + (portion l offset limit).length < l.length)))
    {offset : Nat} (hoffset : offset ≤ bound) : Walk read offset (l.drop offset) := by
  have hlength : (portion l offset limit).length = min limit (l.length - offset) := by
    unfold portion
    rw [List.length_take, List.length_drop]
  by_cases hmore : offset + (portion l offset limit).length < l.length
  · have hpage := hread offset hoffset
    rw [decide_eq_true hmore] at hpage
    have hrest : Walk read (offset + (portion l offset limit).length)
        (l.drop (offset + (portion l offset limit).length)) :=
      Walk.exists limit bound hlimit hbound hread (by omega)
    have hsplit : l.drop offset = portion l offset limit ++
        l.drop (offset + (portion l offset limit).length) := by
      have hfull : (portion l offset limit).length = limit := by omega
      rw [hfull, ← List.drop_drop]
      unfold portion
      rw [List.take_append_drop]
    rw [hsplit]
    exact .more hpage hrest
  · have hpage := hread offset hoffset
    rw [decide_eq_false hmore] at hpage
    have hall : portion l offset limit = l.drop offset := by
      unfold portion
      apply List.take_of_length_le
      rw [List.length_drop]
      omega
    rw [hall] at hpage
    exact .last hpage
termination_by l.length - offset
decreasing_by omega

end Walk

/-! ## §2. The greatest version of each key. -/

section Latest

variable [DecidableEq κ] (key : α → κ) (rank : α → Int)

/-- `SELECT key, max(rank) … GROUP BY key`. -/
def greatest (rows : List α) : List (κ × Option Int) :=
  (rows.map key).dedup.map (fun k => (k, ((rows.filter (fun r => key r = k)).map rank).max?))

/-- `rows JOIN groups ON key = key AND rank = rank`. -/
def joinedRows (rows : List α) (groups : List (κ × Option Int)) : List α :=
  rows.flatMap (fun r => (groups.filter (fun g => g.1 = key r ∧ g.2 = some (rank r))).map
    (fun _ => r))

variable {key rank}

/-- The group of a row that is in the table. -/
theorem mem_greatest {rows : List α} {g : κ × Option Int} :
    g ∈ greatest key rank rows ↔ (∃ r ∈ rows, key r = g.1) ∧
      g.2 = ((rows.filter (fun r => key r = g.1)).map rank).max? := by
  obtain ⟨k, m⟩ := g
  unfold greatest
  rw [List.mem_map]
  constructor
  · intro h
    obtain ⟨k', hk', heq⟩ := h
    cases heq
    rw [List.mem_dedup, List.mem_map] at hk'
    exact ⟨hk', rfl⟩
  · intro h
    obtain ⟨hk, hm⟩ := h
    refine ⟨k, ?_, ?_⟩
    · rw [List.mem_dedup, List.mem_map]
      exact hk
    · exact Prod.ext rfl hm.symm

theorem greatest_keys (rows : List α) :
    ((greatest key rank rows).map Prod.fst).Nodup := by
  unfold greatest
  rw [List.map_map]
  have hid : (Prod.fst ∘ fun k => (k, ((rows.filter (fun r => key r = k)).map rank).max?)) = id :=
    rfl
  rw [hid, List.map_id]
  exact List.nodup_dedup _

/-- A row of the join is a row of the greatest rank of its key. -/
theorem mem_joinedRows {rows grouped : List α} {r : α} :
    r ∈ joinedRows key rank rows (greatest key rank grouped) ↔
      r ∈ rows ∧ (∃ o ∈ grouped, key o = key r ∧ rank o = rank r) ∧
        ∀ o ∈ grouped, key o = key r → rank o ≤ rank r := by
  have hmax : ((grouped.filter (fun o => key o = key r)).map rank).max? = some (rank r) ↔
      (∃ o ∈ grouped, key o = key r ∧ rank o = rank r) ∧
        ∀ o ∈ grouped, key o = key r → rank o ≤ rank r := by
    rw [List.max?_eq_some_iff]
    constructor
    · intro h
      obtain ⟨hmem, hle⟩ := h
      obtain ⟨o, ho, hv⟩ := List.mem_map.mp hmem
      obtain ⟨ho, hk⟩ := List.mem_filter.mp ho
      refine ⟨⟨o, ho, of_decide_eq_true hk, hv⟩, ?_⟩
      intro x hx hxk
      exact hle _ (List.mem_map_of_mem (List.mem_filter.mpr ⟨hx, decide_eq_true hxk⟩))
    · intro h
      obtain ⟨⟨o, ho, hk, hv⟩, hle⟩ := h
      refine ⟨List.mem_map.mpr ⟨o, List.mem_filter.mpr ⟨ho, decide_eq_true hk⟩, hv⟩, ?_⟩
      intro n hn
      obtain ⟨x, hx, rfl⟩ := List.mem_map.mp hn
      obtain ⟨hx, hxk⟩ := List.mem_filter.mp hx
      exact hle x hx (of_decide_eq_true hxk)
  have hgroup : (key r, some (rank r)) ∈ greatest key rank grouped ↔
      (∃ o ∈ grouped, key o = key r ∧ rank o = rank r) ∧
        ∀ o ∈ grouped, key o = key r → rank o ≤ rank r := by
    rw [mem_greatest, ← hmax]
    constructor
    · intro h
      exact h.2.symm
    · intro h
      obtain ⟨⟨o, ho, hk, _⟩, _⟩ := hmax.mp h
      exact ⟨⟨o, ho, hk⟩, h.symm⟩
  unfold joinedRows
  rw [List.mem_flatMap]
  constructor
  · intro h
    obtain ⟨r', hr', hmem⟩ := h
    obtain ⟨g, hg, rfl⟩ := List.mem_map.mp hmem
    obtain ⟨hgm, hcond⟩ := List.mem_filter.mp hg
    obtain ⟨hk, hv⟩ := of_decide_eq_true hcond
    refine ⟨hr', hgroup.mp ?_⟩
    rw [← hk, ← hv]
    exact hgm
  · intro h
    obtain ⟨hr, hcond⟩ := h
    refine ⟨r, hr, List.mem_map.mpr ⟨(key r, some (rank r)), ?_, rfl⟩⟩
    exact List.mem_filter.mpr ⟨hgroup.mpr hcond, by simp⟩

/-- A filter behind the join does what a filter before it would. -/
theorem joinedRows_filter (p : α → Bool) (rows : List α) (groups : List (κ × Option Int)) :
    (joinedRows key rank rows groups).filter p = joinedRows key rank (rows.filter p) groups := by
  unfold joinedRows
  induction rows with
  | nil => rfl
  | cons r rows ih =>
    rw [List.flatMap_cons, List.filter_append, ih, List.filter_map]
    by_cases h : p r = true
    · rw [List.filter_cons_of_pos h, List.flatMap_cons]
      simp [Function.comp_def, h]
    · rw [List.filter_cons_of_neg h]
      simp [Function.comp_def, h]

/-- A row is joinedRows with one group only. -/
theorem joinedRows_once (groups : List (κ × Option Int)) (hn : (groups.map Prod.fst).Nodup) (r : α) :
    (groups.filter (fun g => g.1 = key r ∧ g.2 = some (rank r))).length ≤ 1 := by
  induction groups with
  | nil => simp
  | cons g gs ih =>
    rw [List.map_cons, List.nodup_cons] at hn
    obtain ⟨hg, hgs⟩ := hn
    by_cases hcond : g.1 = key r ∧ g.2 = some (rank r)
    · have hrest : gs.filter (fun g => g.1 = key r ∧ g.2 = some (rank r)) = [] := by
        rw [List.filter_eq_nil_iff]
        intro g' hg' h'
        apply hg
        rw [hcond.1, ← (of_decide_eq_true h').1]
        exact List.mem_map_of_mem hg'
      rw [List.filter_cons_of_pos (by simpa using hcond), hrest]
      simp
    · rw [List.filter_cons_of_neg (by simpa using hcond)]
      exact ih hgs

/-- **The join has one row of each key**, where no key has two rows of one rank. -/
theorem joinedRows_pairwise {rows grouped : List α}
    (hunique : rows.Pairwise (fun a b => ¬ (key a = key b ∧ rank a = rank b))) :
    (joinedRows key rank rows (greatest key rank grouped)).Pairwise (fun a b => key a ≠ key b) := by
  unfold joinedRows
  rw [List.pairwise_flatMap]
  constructor
  · intro r _
    have honce : ((greatest key rank grouped).filter
        (fun g => g.1 = key r ∧ g.2 = some (rank r))).length ≤ 1 :=
      joinedRows_once _ (greatest_keys grouped) r
    rw [List.pairwise_map]
    generalize (greatest key rank grouped).filter
      (fun g => g.1 = key r ∧ g.2 = some (rank r)) = gs at honce
    cases gs with
    | nil => exact List.Pairwise.nil
    | cons g gs =>
      cases gs with
      | nil => exact List.pairwise_singleton _ _
      | cons g' gs => simp at honce
  · refine hunique.imp ?_
    intro a b hab x hx y hy hxy
    obtain ⟨g, hg, rfl⟩ := List.mem_map.mp hx
    obtain ⟨g', hg', rfl⟩ := List.mem_map.mp hy
    obtain ⟨hm, hc⟩ := List.mem_filter.mp hg
    obtain ⟨hm', hc'⟩ := List.mem_filter.mp hg'
    obtain ⟨hk, hv⟩ := of_decide_eq_true hc
    obtain ⟨hk', hv'⟩ := of_decide_eq_true hc'
    apply hab
    refine ⟨hxy, ?_⟩
    -- the two groups have one key, so that they are one group
    have h₁ := (mem_greatest.mp hm).2
    have h₂ := (mem_greatest.mp hm').2
    rw [hk, hxy, ← hk', ← h₂, hv, hv'] at h₁
    exact Option.some.inj h₁

end Latest

/-! ## §3. In order. -/

/-- An order of the keys: total, and no two keys are on a par. -/
structure Order (κ : Type) where
  le : κ → κ → Bool
  total : ∀ a b, (le a b || le b a) = true
  trans : ∀ a b c, le a b = true → le b c = true → le a c = true
  antisymm : ∀ a b, le a b = true → le b a = true → a = b

/-- Strictly before. -/
def Order.Before (o : Order κ) (a b : κ) : Prop := o.le a b = true ∧ a ≠ b

/-- `ORDER BY key`. -/
def Order.sort (o : Order κ) (key : α → κ) (rows : List α) : List α :=
  rows.mergeSort (fun a b => o.le (key a) (key b))

theorem Order.mem_sort (o : Order κ) (key : α → κ) {rows : List α} {r : α} :
    r ∈ o.sort key rows ↔ r ∈ rows :=
  List.mem_mergeSort

/-- **Rows of different keys are put in strictly increasing order.** -/
theorem Order.sort_increasing (o : Order κ) {key : α → κ} {rows : List α}
    (h : rows.Pairwise (fun a b => key a ≠ key b)) :
    (o.sort key rows).Pairwise (fun a b => o.Before (key a) (key b)) := by
  have hsorted : (o.sort key rows).Pairwise (fun a b => o.le (key a) (key b) = true) :=
    List.pairwise_mergeSort (fun a b c => o.trans (key a) (key b) (key c))
      (fun a b => o.total (key a) (key b)) rows
  have hkeys : (o.sort key rows).Pairwise (fun a b => key a ≠ key b) :=
    h.perm (List.mergeSort_perm rows _).symm (fun hab => hab.symm)
  exact List.pairwise_and_iff.mpr ⟨hsorted, hkeys⟩

/-- Nothing is before itself. -/
theorem Order.nodup_of_increasing (o : Order κ) {key : α → κ} {rows : List α}
    (h : rows.Pairwise (fun a b => o.Before (key a) (key b))) : (rows.map key).Nodup := by
  unfold List.Nodup
  rw [List.pairwise_map]
  exact h.imp (fun hab => hab.2)

/-- By the first component, then by the second. -/
def Order.lex {κ' : Type} [DecidableEq κ] (o : Order κ) (o' : Order κ') : Order (κ × κ') where
  le a b := if a.1 = b.1 then o'.le a.2 b.2 else o.le a.1 b.1
  total a b := by
    by_cases h : a.1 = b.1
    · simpa [h] using o'.total a.2 b.2
    · simpa [h, Ne.symm h] using o.total a.1 b.1
  trans a b c hab hbc := by
    by_cases h : a.1 = b.1
    · rw [if_pos h] at hab
      by_cases h' : b.1 = c.1
      · rw [if_pos h'] at hbc
        rw [if_pos (h.trans h')]
        exact o'.trans _ _ _ hab hbc
      · rw [if_neg h'] at hbc
        rw [if_neg (by rwa [h]), h]
        exact hbc
    · rw [if_neg h] at hab
      by_cases h' : b.1 = c.1
      · rw [if_neg (by rwa [← h']), ← h']
        exact hab
      · rw [if_neg h'] at hbc
        have hle := o.trans _ _ _ hab hbc
        by_cases h'' : a.1 = c.1
        · rw [h''] at hab
          exact absurd (o.antisymm _ _ hbc hab) h'
        · rw [if_neg h'']
          exact hle
  antisymm a b hab hba := by
    by_cases h : a.1 = b.1
    · rw [if_pos h] at hab
      rw [if_pos h.symm] at hba
      exact Prod.ext h (o'.antisymm _ _ hab hba)
    · rw [if_neg h] at hab
      rw [if_neg (Ne.symm h)] at hba
      exact absurd (o.antisymm _ _ hab hba) h

end Paging
