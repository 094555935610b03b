import Mathlib.Data.List.Sort
import Lyte.Domain.RoundTrip

/-
  Lyte.Domain.PyValue — Python values before they are JSON.

  A payload is any nesting of dicts, lists and tuples, and the keys of a dict
  need not be strings: `json.dumps` writes None, booleans and numbers as keys
  too.  With `sort_keys=True` it sorts the keys as they are, numbers as numbers,
  before it writes them; a JSON column gives back their texts, which sort as
  strings.

      render_roundTrip    the canonical text survives storage exactly where the
                          two orders agree in every dict.
-/

namespace Lyte

/-! ## §1. Values. -/

/-- A key that `json.dumps` accepts. -/
inductive PyKey where
  | none
  | bool (b : Bool)
  | int (n : Int)
  | float (f : PyFloat)
  | str (s : PyStr)
deriving DecidableEq

/-- A value that `json.dumps` accepts. -/
inductive PyValue where
  | none
  | bool (b : Bool)
  | int (n : Int)
  | float (f : PyFloat)
  | str (s : PyStr)
  | list (items : List PyValue)
  | tuple (items : List PyValue)
  | dict (fields : List (PyKey × PyValue))

namespace PyKey

def isStr : PyKey → Bool
  | .str _ => true
  | _ => false

/-- The number that a key counts as: `bool` is an `int`. -/
def num? : PyKey → Option Num
  | .bool b => some (.fin (if b then 1 else 0))
  | .int n => some (.fin n)
  | .float f => some f.num
  | _ => Option.none

/-- `a <= b`, on two strings or two finite numbers. -/
def le : PyKey → PyKey → Bool
  | .str s, .str t => strLe s t
  | a, b => match a.num?, b.num? with
      | some (.fin p), some (.fin q) => decide (p ≤ q)
      | _, _ => false

/-- The encoder writes the key: a float is finite, an integer has at most 4300
digits. -/
def encodable : PyKey → Bool
  | .int n => decide ((decimal n.natAbs).length ≤ 4300)
  | .float f => f.isFinite
  | _ => true

end PyKey

/-- `sorted` compares the keys with each other, which it refuses where they are
not all strings or all numbers. -/
def sortableKeys (keys : List PyKey) : Bool :=
  decide (keys.length ≤ 1) || keys.all PyKey.isStr || keys.all (fun k => k.num?.isSome)

/-- `sorted(fields)`: by key. -/
def sortItems {β : Type} (fields : List (PyKey × β)) : List (PyKey × β) :=
  fields.insertionSort (fun a b => a.1.le b.1 = true)

theorem sortItems_perm {β : Type} (fields : List (PyKey × β)) : (sortItems fields).Perm fields :=
  List.perm_insertionSort _ _

mutual
/-- No dict in the value has a key twice; every Python dict is so. -/
def PyValue.nodupKeys : PyValue → Bool
  | .list xs => nodupKeysItems xs
  | .tuple xs => nodupKeysItems xs
  | .dict fs => decide ((fs.map Prod.fst).Nodup) && nodupKeysFields fs
  | _ => true

def PyValue.nodupKeysItems : List PyValue → Bool
  | [] => true
  | x :: xs => x.nodupKeys && nodupKeysItems xs

def PyValue.nodupKeysFields : List (PyKey × PyValue) → Bool
  | [] => true
  | (_, v) :: fs => v.nodupKeys && nodupKeysFields fs
end

mutual
/-- `json.dumps(…, sort_keys=True, allow_nan=False)` accepts the value. -/
def PyValue.encodable : PyValue → Bool
  | .int n => decide ((decimal n.natAbs).length ≤ 4300)
  | .float f => f.isFinite
  | .list xs => encodableItems xs
  | .tuple xs => encodableItems xs
  | .dict fs => sortableKeys (fs.map Prod.fst) && encodableFields fs
  | _ => true

def PyValue.encodableItems : List PyValue → Bool
  | [] => true
  | x :: xs => x.encodable && encodableItems xs

def PyValue.encodableFields : List (PyKey × PyValue) → Bool
  | [] => true
  | (k, v) :: fs => k.encodable && v.encodable && encodableFields fs
end

/-! ## §2. Text. -/

section Text

variable (rt : Runtime)

/-- The string that a key is written as. -/
def PyKey.text : PyKey → PyStr
  | .none => py "null"
  | .bool true => py "true"
  | .bool false => py "false"
  | .int n => decimalInt n
  | .float f => rt.floatRepr f
  | .str s => s

mutual
/-- The canonical text of an encodable value. -/
def PyValue.render : PyValue → PyStr
  | .none => py "null"
  | .bool true => py "true"
  | .bool false => py "false"
  | .int n => decimalInt n
  | .float f => rt.floatRepr f
  | .str s => quote s
  | .list xs => [91] ++ joinComma (renderItems xs) ++ [93]
  | .tuple xs => [91] ++ joinComma (renderItems xs) ++ [93]
  | .dict fs =>
      [123] ++ joinComma ((sortItems (renderFields fs)).map
        (fun f => quote (f.1.text rt) ++ [58] ++ f.2)) ++ [125]

def PyValue.renderItems : List PyValue → List PyStr
  | [] => []
  | x :: xs => x.render :: PyValue.renderItems xs

def PyValue.renderFields : List (PyKey × PyValue) → List (PyKey × PyStr)
  | [] => []
  | (k, v) :: fs => (k, v.render) :: PyValue.renderFields fs
end

/-- `canonical_json`, `none` where it raises. -/
def PyValue.canonicalJson (v : PyValue) : Option PyStr :=
  if v.encodable then some (v.render rt) else Option.none

mutual
/-- `json.loads(json.dumps(value))`, what a JSON column returns on the next read:
tuples come back as lists, keys as their texts. -/
def PyValue.roundTrip : PyValue → Json
  | .none => .null
  | .bool b => .bool b
  | .int n => .int n
  | .float f => .float f
  | .str s => .str s
  | .list xs => .list (roundTripItems xs)
  | .tuple xs => .list (roundTripItems xs)
  | .dict fs => .dict (roundTripFields fs)

def PyValue.roundTripItems : List PyValue → List Json
  | [] => []
  | x :: xs => x.roundTrip :: roundTripItems xs

def PyValue.roundTripFields : List (PyKey × PyValue) → List (PyStr × Json)
  | [] => []
  | (k, v) :: fs => (k.text rt, v.roundTrip) :: roundTripFields fs
end

/-- The texts are in string order. -/
def textSorted : List PyStr → Bool
  | [] => true
  | [_] => true
  | s :: t :: ts => strLe s t && textSorted (t :: ts)

mutual
/-- In every dict of the value, the keys sort as their texts do. -/
def PyValue.textOrdered : PyValue → Bool
  | .list xs => textOrderedItems xs
  | .tuple xs => textOrderedItems xs
  | .dict fs => textSorted ((sortItems fs).map (fun f => f.1.text rt)) && textOrderedFields fs
  | _ => true

def PyValue.textOrderedItems : List PyValue → Bool
  | [] => true
  | x :: xs => x.textOrdered && textOrderedItems xs

def PyValue.textOrderedFields : List (PyKey × PyValue) → Bool
  | [] => true
  | (_, v) :: fs => v.textOrdered && textOrderedFields fs
end

/-! ## §3. The mutual definitions, as maps. -/

theorem PyValue.renderItems_eq (xs : List PyValue) :
    PyValue.renderItems rt xs = xs.map (PyValue.render rt) := by
  induction xs with
  | nil => rfl
  | cons x xs ih =>
    unfold PyValue.renderItems
    rw [ih, List.map_cons]

theorem PyValue.renderFields_eq (fs : List (PyKey × PyValue)) :
    PyValue.renderFields rt fs = fs.map (fun f => (f.1, f.2.render rt)) := by
  induction fs with
  | nil => rfl
  | cons f fs ih =>
    unfold PyValue.renderFields
    rw [ih, List.map_cons]

theorem PyValue.roundTripItems_eq (xs : List PyValue) :
    PyValue.roundTripItems rt xs = xs.map (PyValue.roundTrip rt) := by
  induction xs with
  | nil => rfl
  | cons x xs ih =>
    unfold PyValue.roundTripItems
    rw [ih, List.map_cons]

theorem PyValue.roundTripFields_eq (fs : List (PyKey × PyValue)) :
    PyValue.roundTripFields rt fs = fs.map (fun f => (f.1.text rt, f.2.roundTrip rt)) := by
  induction fs with
  | nil => rfl
  | cons f fs ih =>
    unfold PyValue.roundTripFields
    rw [ih, List.map_cons]

theorem PyValue.textOrderedItems_eq (xs : List PyValue) :
    PyValue.textOrderedItems rt xs = xs.all (PyValue.textOrdered rt) := by
  induction xs with
  | nil => rfl
  | cons x xs ih =>
    unfold PyValue.textOrderedItems
    rw [ih, List.all_cons]

theorem PyValue.textOrderedFields_eq (fs : List (PyKey × PyValue)) :
    PyValue.textOrderedFields rt fs = fs.all (fun f => f.2.textOrdered rt) := by
  induction fs with
  | nil => rfl
  | cons f fs ih =>
    unfold PyValue.textOrderedFields
    rw [ih, List.all_cons]

end Text

theorem PyValue.encodableItems_eq (xs : List PyValue) :
    PyValue.encodableItems xs = xs.all PyValue.encodable := by
  induction xs with
  | nil => rfl
  | cons x xs ih =>
    unfold PyValue.encodableItems
    rw [ih, List.all_cons]

theorem PyValue.encodableFields_eq (fs : List (PyKey × PyValue)) :
    PyValue.encodableFields fs = fs.all (fun f => f.1.encodable && f.2.encodable) := by
  induction fs with
  | nil => rfl
  | cons f fs ih =>
    unfold PyValue.encodableFields
    rw [ih, List.all_cons]

theorem PyValue.nodupKeysItems_eq (xs : List PyValue) :
    PyValue.nodupKeysItems xs = xs.all PyValue.nodupKeys := by
  induction xs with
  | nil => rfl
  | cons x xs ih =>
    unfold PyValue.nodupKeysItems
    rw [ih, List.all_cons]

theorem PyValue.nodupKeysFields_eq (fs : List (PyKey × PyValue)) :
    PyValue.nodupKeysFields fs = fs.all (fun f => f.2.nodupKeys) := by
  induction fs with
  | nil => rfl
  | cons f fs ih =>
    unfold PyValue.nodupKeysFields
    rw [ih, List.all_cons]

/-! ## §4. Texts that agree. -/

/-- A string literal ends where it ends. -/
theorem quote_append_inj {s t r r' : PyStr} (h : quote s ++ r = quote t ++ r') :
    s = t ∧ r = r' := by
  have hread : ∀ (u w : PyStr), quote u ++ w = 34 :: (u.flatMap escapeChar ++ 34 :: w) := by
    intro u w
    unfold quote
    simp
  rw [hread, hread] at h
  have hscan := congrArg (fun cs => scanString cs false []) (List.cons.inj h).2
  simp only [scanString_quote, List.reverse_nil, List.nil_append, Option.some.injEq,
    Prod.mk.injEq] at hscan
  exact hscan

section Agree

variable {α : Type} {f g : α → PyStr} {Q : α → Prop}

/-- The first text of a joined list, and what follows it. -/
theorem joinComma_first {β : Type} (e : β → PyStr) (x : β) (xs : List β) (w : PyStr) :
    ∃ w', joinComma ((x :: xs).map e) ++ w = e x ++ w' ∧
      (xs ≠ [] → w' = 44 :: (joinComma (xs.map e) ++ w)) := by
  cases xs with
  | nil => exact ⟨w, rfl, fun hne => absurd rfl hne⟩
  | cons y ys =>
    refine ⟨44 :: (joinComma ((y :: ys).map e) ++ w), ?_, fun _ => rfl⟩
    rw [List.map_cons, List.map_cons, joinComma_cons_cons, List.append_assoc]
    rfl

/-- Items that are written alike one by one, if they are written alike together. -/
theorem items_agree {xs : List α} (hstep : ∀ x ∈ xs, ∀ r r', f x ++ r = g x ++ r' → Q x)
    (hsame : ∀ x ∈ xs, Q x → f x = g x) {r r' : PyStr}
    (h : joinComma (xs.map f) ++ r = joinComma (xs.map g) ++ r') : ∀ x ∈ xs, Q x := by
  induction xs with
  | nil =>
    intro x hx
    cases hx
  | cons y ys ih =>
    obtain ⟨w, hw, hrest⟩ := joinComma_first f y ys r
    obtain ⟨w', hw', hrest'⟩ := joinComma_first g y ys r'
    rw [hw, hw'] at h
    have hy := hstep y List.mem_cons_self _ _ h
    intro x hx
    rcases List.mem_cons.mp hx with rfl | hx
    · exact hy
    · have hne : ys ≠ [] := List.ne_nil_of_mem hx
      rw [hsame y List.mem_cons_self hy, List.append_right_inj, hrest hne, hrest' hne] at h
      exact ih (fun z hz => hstep z (List.mem_cons_of_mem _ hz))
        (fun z hz => hsame z (List.mem_cons_of_mem _ hz)) (List.cons.inj h).2 x hx

/-- A field, as it is written. -/
def pairText (f : α → PyStr) (p : PyStr × α) : PyStr := quote p.1 ++ [58] ++ f p.2

/-- Fields that are written alike in two orders are in one order. -/
theorem fields_agree {ps qs : List (PyStr × α)}
    (hstep : ∀ p ∈ ps, ∀ r r', f p.2 ++ r = g p.2 ++ r' → Q p.2)
    (hsame : ∀ p ∈ ps, Q p.2 → f p.2 = g p.2) (hperm : ps.Perm qs) (hn : (ps.map Prod.fst).Nodup) {r r' : PyStr}
    (h : joinComma (ps.map (pairText f)) ++ r = joinComma (qs.map (pairText g)) ++ r') :
    ps = qs ∧ ∀ p ∈ ps, Q p.2 := by
  induction ps generalizing qs with
  | nil =>
    exact ⟨hperm.nil_eq, fun _ hp => by cases hp⟩
  | cons p ps ih =>
    cases qs with
    | nil => exact absurd hperm.symm.nil_eq (List.cons_ne_nil _ _).symm
    | cons q qs =>
      obtain ⟨w, hw, hrest⟩ := joinComma_first (pairText f) p ps r
      obtain ⟨w', hw', hrest'⟩ := joinComma_first (pairText g) q qs r'
      rw [hw, hw'] at h
      unfold pairText at h
      simp only [List.append_assoc] at h
      obtain ⟨hkey, hvalue⟩ := quote_append_inj h
      have hq : q ∈ p :: ps := hperm.mem_iff.mpr List.mem_cons_self
      -- the keys are distinct, so that one key means one field
      have heq : p = q := eq_of_key hn List.mem_cons_self hq hkey
      subst heq
      have hafter : f p.2 ++ w = g p.2 ++ w' := (List.cons.inj hvalue).2
      have hp := hstep p List.mem_cons_self _ _ hafter
      have htail := hperm.cons_inv
      by_cases hne : ps = []
      · subst hne
        have hqs : qs = [] := htail.nil_eq.symm
        subst hqs
        refine ⟨rfl, ?_⟩
        intro x hx
        rw [List.mem_singleton.mp hx]
        exact hp
      · have hne' : qs ≠ [] := fun hqs => hne (by rw [hqs] at htail; exact htail.eq_nil)
        rw [hsame p List.mem_cons_self hp, List.append_right_inj, hrest hne, hrest' hne'] at hafter
        rw [List.map_cons, List.nodup_cons] at hn
        obtain ⟨hqs, hall⟩ := ih (fun z hz => hstep z (List.mem_cons_of_mem _ hz))
          (fun z hz => hsame z (List.mem_cons_of_mem _ hz)) htail hn.2 (List.cons.inj hafter).2
        refine ⟨by rw [hqs], ?_⟩
        intro x hx
        rcases List.mem_cons.mp hx with rfl | hx
        · exact hp
        · exact hall x hx

end Agree

/-! ## §5. Keys are told apart by their texts. -/

section Keys

variable {rt : Interpreter}

/-- What the scanner reads where a number or a boolean was written as a key. -/
def PyKey.atom : PyKey → Json
  | .none => .null
  | .bool b => .bool b
  | .int n => .int n
  | .float f => .float f
  | .str s => .str s

theorem PyKey.atom_inj {a b : PyKey} (h : a.atom = b.atom) : a = b := by
  cases a <;> cases b <;> cases h <;> rfl

theorem scanAtom_key (hrepr : ReprRoundTrip rt) {k : PyKey} (hk : k.num?.isSome = true)
    (he : k.encodable = true) : scanAtom rt [] (k.text rt.toRuntime ++ []) = .ok (k.atom, []) := by
  cases k with
  | none => cases hk
  | str s => cases hk
  | bool b =>
    cases b with
    | true =>
      show scanAtom rt [] (py "true" ++ []) = _
      rw [py_true]
      rfl
    | false =>
      show scanAtom rt [] (py "false" ++ []) = _
      rw [py_false]
      rfl
  | int n => exact scanAtom_int rt [] (of_decide_eq_true he) stops_nil
  | float f => exact scanAtom_float [] hrepr he stops_nil

/-- **The keys of a dict have distinct texts.** -/
theorem texts_nodup (hrepr : ReprRoundTrip rt) {keys : List PyKey} (hn : keys.Nodup)
    (hs : sortableKeys keys = true) (he : ∀ k ∈ keys, k.encodable = true) :
    (keys.map (PyKey.text rt.toRuntime)).Nodup := by
  unfold sortableKeys at hs
  rw [Bool.or_eq_true, Bool.or_eq_true, decide_eq_true_eq, List.all_eq_true, List.all_eq_true] at hs
  rcases hs with (hs | hs) | hs
  · cases keys with
    | nil => exact List.nodup_nil
    | cons k ks =>
      have hks : ks = [] := List.length_eq_zero_iff.mp (by simp only [List.length_cons] at hs; omega)
      rw [hks]
      exact List.nodup_singleton _
  · refine List.Nodup.map_on ?_ hn
    intro a ha b hb htext
    have ha := hs a ha
    have hb := hs b hb
    cases a with
    | str s =>
      cases b with
      | str t =>
        have hst : s = t := htext
        rw [hst]
      | _ => cases hb
    | _ => cases ha
  · refine List.Nodup.map_on ?_ hn
    intro a ha b hb htext
    have hscan := scanAtom_key hrepr (hs a ha) (he a ha)
    rw [htext, scanAtom_key hrepr (hs b hb) (he b hb)] at hscan
    injection hscan with hscan
    exact (PyKey.atom_inj (Prod.mk.inj hscan).1).symm

end Keys

/-! ## §6. Storage. -/

theorem textSorted_iff (ts : List PyStr) :
    textSorted ts = true ↔ ts.Pairwise (fun s t => strLe s t = true) := by
  induction ts with
  | nil => simp [textSorted]
  | cons s ts ih =>
    cases ts with
    | nil => simp [textSorted]
    | cons t ts =>
      unfold textSorted
      rw [Bool.and_eq_true, ih]
      constructor
      · intro h
        obtain ⟨hst, hts⟩ := h
        refine List.pairwise_cons.mpr ⟨?_, hts⟩
        intro u hu
        rcases List.mem_cons.mp hu with rfl | hu
        · exact hst
        · exact strLe_trans hst ((List.pairwise_cons.mp hts).1 u hu)
      · intro h
        obtain ⟨hs, hts⟩ := List.pairwise_cons.mp h
        exact ⟨hs t List.mem_cons_self, hts⟩

/-- Only the keys decide about the order. -/
theorem sortItems_map {β γ : Type} (g : β → γ) (fs : List (PyKey × β)) :
    sortItems (fs.map (fun f => (f.1, g f.2))) = (sortItems fs).map (fun f => (f.1, g f.2)) := by
  unfold sortItems
  exact (List.map_insertionSort _ _ (fun f : PyKey × β => (f.1, g f.2)) fs
    (fun _ _ _ _ => Iff.rfl)).symm

section Storage

variable {rt : Interpreter}

theorem PyValue.render_dict (rt : Runtime) (fs : List (PyKey × PyValue)) :
    (PyValue.dict fs).render rt = [123] ++ joinComma
      (((sortItems fs).map (fun f => (f.1.text rt, f.2))).map (pairText (PyValue.render rt)))
      ++ [125] := by
  unfold PyValue.render
  rw [PyValue.renderFields_eq, sortItems_map, List.map_map, List.map_map]
  rfl

theorem PyValue.render_roundTrip_dict (rt : Runtime) (fs : List (PyKey × PyValue)) :
    ((PyValue.dict fs).roundTrip rt).render rt = [123] ++ joinComma
      ((sortByKey (fs.map (fun f => (f.1.text rt, f.2)))).map
        (pairText (fun v => (v.roundTrip rt).render rt))) ++ [125] := by
  have hstored : (PyValue.dict fs).roundTrip rt
      = .dict ((fs.map (fun f => (f.1.text rt, f.2))).map (fun f => (f.1, f.2.roundTrip rt))) := by
    rw [PyValue.roundTrip, PyValue.roundTripFields_eq, List.map_map]
    rfl
  rw [hstored, render_eq_renderWith, renderWith_dict, sortByKey_map, List.map_map]
  congr 3
  apply List.map_congr_left
  intro f _
  show fieldText rt quote (f.1, f.2.roundTrip rt) = pairText _ f
  unfold fieldText pairText
  simp only [render_eq_renderWith]

theorem PyValue.render_roundTrip_list (rt : Runtime) (xs : List PyValue) :
    ((PyValue.list xs).roundTrip rt).render rt
      = [91] ++ joinComma (xs.map (fun v => (v.roundTrip rt).render rt)) ++ [93] := by
  rw [PyValue.roundTrip, PyValue.roundTripItems_eq, render_eq_renderWith, renderWith_list,
    List.map_map]
  congr 3
  apply List.map_congr_left
  intro v _
  exact (render_eq_renderWith rt (v.roundTrip rt)).symm

/-- What is written at one value tells how its dicts are ordered. -/
structure Settled (rt : Runtime) (v : PyValue) : Prop where
  same : v.textOrdered rt = true → v.render rt = (v.roundTrip rt).render rt
  ordered : ∀ r r', v.render rt ++ r = (v.roundTrip rt).render rt ++ r' → v.textOrdered rt = true

/-- Lists and tuples are written alike. -/
theorem settled_items {xs : List PyValue} (hxs : ∀ x ∈ xs, Settled rt.toRuntime x)
    {v : PyValue} (hv : v = .list xs ∨ v = .tuple xs) : Settled rt.toRuntime v := by
  have hrender : v.render rt.toRuntime
      = [91] ++ joinComma (xs.map (PyValue.render rt.toRuntime)) ++ [93] := by
    rcases hv with rfl | rfl
    · rw [PyValue.render, PyValue.renderItems_eq]
    · rw [PyValue.render, PyValue.renderItems_eq]
  have hstored : (v.roundTrip rt.toRuntime).render rt.toRuntime = [91] ++ joinComma
      (xs.map (fun v => (v.roundTrip rt.toRuntime).render rt.toRuntime)) ++ [93] := by
    rcases hv with rfl | rfl
    · exact PyValue.render_roundTrip_list _ xs
    · exact PyValue.render_roundTrip_list _ xs
  have hordered : v.textOrdered rt.toRuntime = true ↔
      ∀ x ∈ xs, x.textOrdered rt.toRuntime = true := by
    rw [← List.all_eq_true, ← PyValue.textOrderedItems_eq]
    rcases hv with rfl | rfl
    · rw [PyValue.textOrdered]
    · rw [PyValue.textOrdered]
  constructor
  · intro h
    rw [hrender, hstored,
      List.map_congr_left (fun x hx => (hxs x hx).same (hordered.mp h x hx))]
  · intro r r' h
    rw [hrender, hstored] at h
    simp only [List.append_assoc, List.append_right_inj] at h
    exact hordered.mpr (items_agree (fun x hx => (hxs x hx).ordered)
      (fun x hx => (hxs x hx).same) h)

/-- A dict is written alike where its two orders are one. -/
theorem settled_dict (hrepr : ReprRoundTrip rt) {fs : List (PyKey × PyValue)}
    (hfs : ∀ f ∈ fs, Settled rt.toRuntime f.2) (hn : (fs.map Prod.fst).Nodup)
    (he : (PyValue.dict fs).encodable = true) : Settled rt.toRuntime (.dict fs) := by
  rw [PyValue.encodable, PyValue.encodableFields_eq, Bool.and_eq_true, List.all_eq_true] at he
  obtain ⟨hsortable, hkeys⟩ := he
  have htexts := texts_nodup hrepr hn hsortable (fun k hk => by
    obtain ⟨f, hf, rfl⟩ := List.mem_map.mp hk
    exact (Bool.and_eq_true_iff.mp (hkeys f hf)).1)
  -- the fields in Python's order, under the texts of their keys
  have hperm : ((sortItems fs).map (fun f => (f.1.text rt.toRuntime, f.2))).Perm
      (fs.map (fun f => (f.1.text rt.toRuntime, f.2))) := (sortItems_perm fs).map _
  have hn' : (((sortItems fs).map (fun f => (f.1.text rt.toRuntime, f.2))).map Prod.fst).Nodup := by
    refine (hperm.map Prod.fst).nodup_iff.mpr ?_
    rw [List.map_map]
    rw [List.map_map] at htexts
    exact htexts
  have hordered : (PyValue.dict fs).textOrdered rt.toRuntime = true ↔
      KeySorted ((sortItems fs).map (fun f => (f.1.text rt.toRuntime, f.2))) ∧
        ∀ f ∈ fs, f.2.textOrdered rt.toRuntime = true := by
    rw [PyValue.textOrdered, PyValue.textOrderedFields_eq, Bool.and_eq_true, List.all_eq_true,
      textSorted_iff]
    unfold KeySorted
    rw [List.pairwise_map, List.pairwise_map]
  constructor
  · intro h
    obtain ⟨hsorted, hall⟩ := hordered.mp h
    rw [PyValue.render_dict, PyValue.render_roundTrip_dict,
      ← sortByKey_congr hn' hperm, sortByKey_of_sorted hsorted]
    congr 3
    apply List.map_congr_left
    intro p hp
    obtain ⟨f, hf, rfl⟩ := List.mem_map.mp (hperm.mem_iff.mp hp)
    unfold pairText
    rw [(hfs f hf).same (hall f hf)]
  · intro r r' h
    rw [PyValue.render_dict, PyValue.render_roundTrip_dict] at h
    simp only [List.append_assoc, List.append_right_inj] at h
    have hmem : ∀ p ∈ (sortItems fs).map (fun f => (f.1.text rt.toRuntime, f.2)),
        Settled rt.toRuntime p.2 := by
      intro p hp
      obtain ⟨f, hf, rfl⟩ := List.mem_map.mp (hperm.mem_iff.mp hp)
      exact hfs f hf
    obtain ⟨heq, hall⟩ := fields_agree (Q := fun v => v.textOrdered rt.toRuntime = true)
      (fun p hp => (hmem p hp).ordered)
      (fun p hp => (hmem p hp).same) (hperm.trans (sortByKey_perm _).symm) hn' h
    apply hordered.mpr
    constructor
    · rw [heq]
      exact sortByKey_sorted _
    · intro f hf
      exact hall _ (hperm.mem_iff.mpr (List.mem_map_of_mem hf))

mutual
theorem settled_value (hrepr : ReprRoundTrip rt) (v : PyValue) (hn : v.nodupKeys = true)
    (he : v.encodable = true) : Settled rt.toRuntime v := by
  cases v with
  | list xs =>
    rw [PyValue.nodupKeys, PyValue.nodupKeysItems_eq, List.all_eq_true] at hn
    rw [PyValue.encodable, PyValue.encodableItems_eq, List.all_eq_true] at he
    exact settled_items (settled_of_items hrepr xs hn he) (.inl rfl)
  | tuple xs =>
    rw [PyValue.nodupKeys, PyValue.nodupKeysItems_eq, List.all_eq_true] at hn
    rw [PyValue.encodable, PyValue.encodableItems_eq, List.all_eq_true] at he
    exact settled_items (settled_of_items hrepr xs hn he) (.inr rfl)
  | dict fs =>
    rw [PyValue.nodupKeys, PyValue.nodupKeysFields_eq, Bool.and_eq_true, List.all_eq_true,
      decide_eq_true_eq] at hn
    have he' := he
    rw [PyValue.encodable, PyValue.encodableFields_eq, Bool.and_eq_true, List.all_eq_true] at he'
    refine settled_dict hrepr (settled_of_fields hrepr fs hn.2 ?_) hn.1 he
    intro f hf
    exact (Bool.and_eq_true_iff.mp (he'.2 f hf)).2
  | bool b => cases b <;> exact ⟨fun _ => rfl, fun _ _ _ => rfl⟩
  | _ => exact ⟨fun _ => rfl, fun _ _ _ => rfl⟩

theorem settled_of_items (hrepr : ReprRoundTrip rt) (xs : List PyValue)
    (hn : ∀ x ∈ xs, x.nodupKeys = true) (he : ∀ x ∈ xs, x.encodable = true) :
    ∀ x ∈ xs, Settled rt.toRuntime x := by
  cases xs with
  | nil =>
    intro x hx
    cases hx
  | cons y ys =>
    intro x hx
    rcases List.mem_cons.mp hx with h | h
    · rw [h]
      exact settled_value hrepr y (hn y List.mem_cons_self) (he y List.mem_cons_self)
    · exact settled_of_items hrepr ys (fun z hz => hn z (List.mem_cons_of_mem _ hz))
        (fun z hz => he z (List.mem_cons_of_mem _ hz)) x h

theorem settled_of_fields (hrepr : ReprRoundTrip rt) (fs : List (PyKey × PyValue))
    (hn : ∀ f ∈ fs, f.2.nodupKeys = true) (he : ∀ f ∈ fs, f.2.encodable = true) :
    ∀ f ∈ fs, Settled rt.toRuntime f.2 := by
  cases fs with
  | nil =>
    intro f hf
    cases hf
  | cons g gs =>
    intro f hf
    rcases List.mem_cons.mp hf with h | h
    · rw [h]
      exact settled_value hrepr g.2 (hn g List.mem_cons_self) (he g List.mem_cons_self)
    · exact settled_of_fields hrepr gs (fun z hz => hn z (List.mem_cons_of_mem _ hz))
        (fun z hz => he z (List.mem_cons_of_mem _ hz)) f h
end

/-- **The canonical text survives storage exactly where every dict sorts as its key
texts do.** -/
theorem PyValue.render_roundTrip (hrepr : ReprRoundTrip rt) {v : PyValue}
    (hn : v.nodupKeys = true) (he : v.encodable = true) :
    v.render rt.toRuntime = (v.roundTrip rt.toRuntime).render rt.toRuntime ↔
      v.textOrdered rt.toRuntime = true := by
  constructor
  · intro h
    apply (settled_value hrepr v hn he).ordered [] []
    rw [h]
  · exact (settled_value hrepr v hn he).same

end Storage

end Lyte
