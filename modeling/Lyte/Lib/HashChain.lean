import Mathlib.Data.List.Chain

/-
  Lyte.Lib.HashChain — append-only chains of digested entries.

  An entry knows its place (`index`), the digest of the entry before it
  (`prev`) and its own digest.  `Chained ok n p as` says that `as` continues a
  chain whose last entry had index `n` and digest `p`; `tip` is where a chain
  stands after more entries.  A chain is extended at its tip and nowhere else:

      chained_append   as ++ bs is a chain iff as is one and bs continues it
                       at its tip.

  What makes an entry good by itself (`ok`) is a parameter.
-/

namespace HashChain

/-- How a chain reads its entries. -/
structure Links (α H : Type) where
  index : α → Int
  prev : α → Option H
  digest : α → H

variable {α β H : Type} (L : Links α H) (ok : α → Prop)

/-- `as` continues a chain that stands at `(n, p)`. -/
def Chained : Int → Option H → List α → Prop
  | _, _, [] => True
  | n, p, a :: as =>
      L.index a = n + 1 ∧ L.prev a = p ∧ ok a ∧ Chained (n + 1) (some (L.digest a)) as

/-- Where a chain stands: the index and the digest of its last entry. -/
def tip (start : Int × Option H) (as : List α) : Int × Option H :=
  match as.getLast? with
  | some a => (L.index a, some (L.digest a))
  | none => start

variable {L ok}

@[simp] theorem tip_nil (start : Int × Option H) : tip L start [] = start := rfl

@[simp] theorem tip_concat (start : Int × Option H) (as : List α) (a : α) :
    tip L start (as ++ [a]) = (L.index a, some (L.digest a)) := by simp [tip]

theorem tip_cons (start : Int × Option H) (a : α) (as : List α) :
    tip L start (a :: as) = tip L (L.index a, some (L.digest a)) as := by
  cases as with
  | nil => rfl
  | cons b bs => simp [tip, List.getLast?_eq_some_getLast]

theorem tip_append (start : Int × Option H) (as bs : List α) :
    tip L start (as ++ bs) = tip L (tip L start as) bs := by
  induction as generalizing start with
  | nil => rfl
  | cons a as ih => rw [List.cons_append, tip_cons, ih, tip_cons]

@[simp] theorem chained_nil (n : Int) (p : Option H) : Chained L ok n p [] := trivial

/-- **A chain is extended at its tip.** -/
theorem chained_append {n : Int} {p : Option H} {as bs : List α} :
    Chained L ok n p (as ++ bs) ↔
      Chained L ok n p as ∧ Chained L ok (tip L (n, p) as).1 (tip L (n, p) as).2 bs := by
  induction as generalizing n p with
  | nil => simp
  | cons a as ih =>
    simp only [List.cons_append, Chained, ih, tip_cons]
    constructor
    · rintro ⟨hi, hp, ho, has, hbs⟩
      exact ⟨⟨hi, hp, ho, has⟩, by rwa [hi]⟩
    · rintro ⟨⟨hi, hp, ho, has⟩, hbs⟩
      exact ⟨hi, hp, ho, has, by rwa [hi] at hbs⟩

/-- A chain of `as.length` entries stands that much further. -/
theorem tip_index {n : Int} {p : Option H} {as : List α} (h : Chained L ok n p as) :
    (tip L (n, p) as).1 = n + as.length := by
  induction as generalizing n p with
  | nil => simp
  | cons a as ih =>
    obtain ⟨hi, _, _, has⟩ := h
    rw [tip_cons, hi, ih has, List.length_cons]
    omega

/-- The entries of a chain are numbered one after another. -/
theorem chained_index {n : Int} {p : Option H} {as : List α} (h : Chained L ok n p as) :
    as.map L.index = (List.range as.length).map (fun i : Nat => n + 1 + (i : Int)) := by
  induction as generalizing n p with
  | nil => rfl
  | cons a as ih =>
    obtain ⟨hi, _, _, has⟩ := h
    rw [List.map_cons, ih has, hi, List.length_cons, List.range_succ_eq_map, List.map_cons,
      List.map_map]
    congr 1
    · omega
    · refine List.map_congr_left fun i _ => ?_
      simp only [Function.comp, Nat.succ_eq_add_one]
      omega

theorem chained_forall {n : Int} {p : Option H} {as : List α} (h : Chained L ok n p as) :
    ∀ a ∈ as, ok a := by
  induction as generalizing n p with
  | nil => simp
  | cons a as ih =>
    obtain ⟨_, _, ho, has⟩ := h
    intro b hb
    rcases List.mem_cons.mp hb with rfl | hb
    · exact ho
    · exact ih has b hb

/-- Every entry of a chain comes after all earlier ones. -/
theorem chained_pairwise {n : Int} {p : Option H} {as : List α} (h : Chained L ok n p as) :
    as.Pairwise (fun a b => L.index a < L.index b) ∧ ∀ a ∈ as, n < L.index a := by
  induction as generalizing n p with
  | nil => simp
  | cons a as ih =>
    obtain ⟨hi, _, _, has⟩ := h
    obtain ⟨hpair, hall⟩ := ih has
    refine ⟨List.pairwise_cons.mpr ⟨fun b hb => ?_, hpair⟩, fun b hb => ?_⟩
    · have := hall b hb
      omega
    · rcases List.mem_cons.mp hb with rfl | hb
      · omega
      · have := hall b hb
        omega

/-- The first entry of a chain names what the chain continues. -/
theorem chained_first {n : Int} {p : Option H} {as : List α} (h : Chained L ok n p as) :
    ∀ a, as.head? = some a → L.prev a = p := by
  intro a ha
  cases as with
  | nil => cases ha
  | cons b bs =>
    cases ha
    exact h.2.1

/-- Every later entry names the digest of its predecessor. -/
theorem chained_isChain {n : Int} {p : Option H} {as : List α} (h : Chained L ok n p as) :
    as.IsChain (fun a b => L.prev b = some (L.digest a)) := by
  induction as generalizing n p with
  | nil => exact .nil
  | cons a as ih =>
    obtain ⟨_, _, _, has⟩ := h
    cases as with
    | nil => exact .singleton a
    | cons b bs => exact .cons_cons has.2.1 (ih has)

theorem tip_digest (n : Int) (as : List α) :
    (tip L (n, none) as).2 = as.getLast?.map L.digest := by
  unfold tip
  cases as.getLast? with
  | none => rfl
  | some a => rfl

/-- A chain read through another type of entries. -/
theorem chained_map {L' : Links β H} {ok' : β → Prop} {f : α → β}
    (hi : ∀ a, L'.index (f a) = L.index a) (hp : ∀ a, L'.prev (f a) = L.prev a)
    (hd : ∀ a, L'.digest (f a) = L.digest a) (hok : ∀ a, ok a → ok' (f a)) {n : Int}
    {p : Option H} {as : List α} (h : Chained L ok n p as) :
    Chained L' ok' n p (as.map f) := by
  induction as generalizing n p with
  | nil => trivial
  | cons a as ih =>
    obtain ⟨hia, hpa, hoa, has⟩ := h
    exact ⟨by rw [hi, hia], by rw [hp, hpa], hok a hoa, by rw [hd]; exact ih has⟩

/-- A chain of records is one of records that less is known of. -/
theorem Chained.imp {ok' : α → Prop} {n : Int} {p : Option H} {as : List α}
    (h : Chained L ok n p as) (hok : ∀ a, ok a → ok' a) : Chained L ok' n p as := by
  induction as generalizing n p with
  | nil => trivial
  | cons a as ih =>
    obtain ⟨hi, hp, ho, has⟩ := h
    exact ⟨hi, hp, hok a ho, ih has⟩

theorem tip_map {L' : Links β H} {f : α → β} (hi : ∀ a, L'.index (f a) = L.index a)
    (hd : ∀ a, L'.digest (f a) = L.digest a) (start : Int × Option H) (as : List α) :
    tip L' start (as.map f) = tip L start as := by
  simp only [tip, List.getLast?_map]
  cases as.getLast? with
  | none => rfl
  | some a => simp [hi, hd]

/-- A chain whose entries are good in one more sense. -/
theorem chained_and {ok' : α → Prop} {n : Int} {p : Option H} {as : List α}
    (h : Chained L ok n p as) (h' : ∀ a ∈ as, ok' a) :
    Chained L (fun a => ok a ∧ ok' a) n p as := by
  induction as generalizing n p with
  | nil => trivial
  | cons a as ih =>
    obtain ⟨hi, hp, ho, has⟩ := h
    exact ⟨hi, hp, ⟨ho, h' a List.mem_cons_self⟩,
      ih has (fun b hb => h' b (List.mem_cons_of_mem _ hb))⟩

end HashChain
