import Lyte.Domain.Receipts

/-
  Lyte.Domain.Spellings — credential keys in every spelling.

  A key is a list of words under some spelling.  The separated spellings give
  their words back to `findWords` at once; the joined ones hide the boundaries in
  capitals, which the second pass of `isSensitiveKey` opens up again.  No word is
  a single character, so that no two capitals meet and `openAcronyms` has nothing
  to do.

      credential_spellings   a listed list of words is recognised in all seven
                             spellings, any other one in none of the three that
                             keep its words apart in small letters
-/

namespace Lyte

/-! ## §1. Words and spellings. -/

/-- A word of a key: two or more small letters and digits, a letter first. -/
structure IsWord (w : PyStr) : Prop where
  length : 2 ≤ w.length
  head : ∀ c ∈ w.head?, isLower c = true
  chars : ∀ c ∈ w, isWordChar c = true

def asciiUpper (c : Nat) : Nat := if isLower c then c - 32 else c

/-- The word with a capital in front. -/
def capitalize : PyStr → PyStr
  | [] => []
  | c :: cs => asciiUpper c :: cs

/-- The words with a separator between them. -/
def separated (sep : Nat) : List PyStr → PyStr
  | [] => []
  | w :: ws => w ++ ws.flatMap (fun v => sep :: v)

inductive Spelling where
  | snake | kebab | dotted | spaced | screaming | camel | pascal
deriving DecidableEq

/-- A list of words as one key. -/
def Spelling.spell (words : List PyStr) : Spelling → PyStr
  | .snake => separated 95 words
  | .kebab => separated 45 words
  | .dotted => separated 46 words
  | .spaced => separated 32 words
  | .screaming => (separated 95 words).map asciiUpper
  | .camel => match words with
      | [] => []
      | w :: ws => w ++ ws.flatMap capitalize
  | .pascal => words.flatMap capitalize

/-- The last word, or the last two run together, is a credential name. -/
def Listed (words : List PyStr) : Prop :=
  (∃ init w, words = init ++ [w] ∧ w ∈ sensitiveKeys) ∨
    ∃ init v w, words = init ++ [v, w] ∧ v ++ w ∈ sensitiveKeys

theorem endsSensitive_iff (words : List PyStr) : endsSensitive words = true ↔ Listed words := by
  have hlast : ∀ (w : PyStr) (init : List PyStr), endsSensitive (init ++ [w]) = true ↔
      w ∈ sensitiveKeys ∨ ∃ init' v, init = init' ++ [v] ∧ v ++ w ∈ sensitiveKeys := by
    intro w init
    rcases List.eq_nil_or_concat init with rfl | ⟨init', v, rfl⟩
    · simp [endsSensitive]
    · rw [List.concat_eq_append]
      have hends : endsSensitive (init' ++ [v] ++ [w])
          = (sensitiveKeys.contains w || sensitiveKeys.contains (v ++ w)) := by
        simp [endsSensitive]
      rw [hends, Bool.or_eq_true, List.contains_iff_mem, List.contains_iff_mem]
      constructor
      · intro h
        exact h.imp_right (fun h => ⟨init', v, rfl, h⟩)
      · intro h
        apply h.imp_right
        rintro ⟨init'', v', heq, h⟩
        obtain ⟨_, hv⟩ := List.append_inj' heq rfl
        rw [List.singleton_inj.mp hv]
        exact h
  rcases List.eq_nil_or_concat words with rfl | ⟨init, w, rfl⟩
  · simp [Listed, endsSensitive]
  · rw [List.concat_eq_append, hlast]
    unfold Listed
    constructor
    · intro h
      rcases h with h | ⟨init', v, rfl, h⟩
      · exact .inl ⟨init, w, rfl, h⟩
      · exact .inr ⟨init', v, w, by simp, h⟩
    · intro h
      rcases h with ⟨init', w', heq, h⟩ | ⟨init', v, w', heq, h⟩
      · rw [List.singleton_inj.mp (List.append_inj_right' heq rfl)]
        exact .inl h
      · have hsplit : init ++ [w] = (init' ++ [v]) ++ [w'] := by
          rw [heq]
          simp
        obtain ⟨hinit, hw⟩ := List.append_inj' hsplit rfl
        rw [List.singleton_inj.mp hw]
        exact .inr ⟨init', v, hinit, h⟩

/-! ## §2. Words are found again. -/

theorem findWords_word {w rest word : PyStr} (h : ∀ c ∈ w, isWordChar c = true) :
    findWords (w ++ rest) word = findWords rest (w.reverse ++ word) := by
  induction w generalizing word with
  | nil => rfl
  | cons c w ih =>
    rw [List.cons_append]
    conv_lhs => unfold findWords
    simp only [h c List.mem_cons_self, if_true]
    rw [ih (fun d hd => h d (List.mem_cons_of_mem _ hd)), List.reverse_cons, List.append_assoc]
    rfl

theorem IsWord.ne_nil {w : PyStr} (h : IsWord w) : w ≠ [] := by
  intro hnil
  have hlength := h.length
  rw [hnil] at hlength
  simp at hlength

/-- **The words of a separated key are found.** -/
theorem findWords_separated {sep : Nat} (hsep : isWordChar sep = false) {words : List PyStr}
    (h : ∀ w ∈ words, IsWord w) : findWords (separated sep words) [] = words := by
  have htail : ∀ (ws : List PyStr) (w : PyStr), IsWord w → (∀ v ∈ ws, IsWord v) →
      findWords (ws.flatMap (fun v => sep :: v)) w.reverse = w :: ws := by
    intro ws
    induction ws with
    | nil =>
      intro w hw _
      have hne := hw.ne_nil
      simp [findWords, hne]
    | cons v ws ih =>
      intro w hw hws
      have hv := hws v List.mem_cons_self
      have hne : w.reverse.isEmpty = false := by simp [hw.ne_nil]
      rw [List.flatMap_cons, List.cons_append]
      unfold findWords
      simp only [hsep, Bool.false_eq_true, if_false, hne, List.reverse_reverse]
      rw [findWords_word hv.chars, List.append_nil,
        ih v hv (fun u hu => hws u (List.mem_cons_of_mem _ hu))]
  cases words with
  | nil => rfl
  | cons w ws =>
    have hw := h w List.mem_cons_self
    unfold separated
    rw [findWords_word hw.chars, List.append_nil]
    exact htail ws w hw (fun v hv => h v (List.mem_cons_of_mem _ hv))

/-! ## §3. Characters. -/

theorem wordChar_plain {c : Nat} (h : isWordChar c = true) :
    isUpper c = false ∧ asciiLower c = c ∧ isSpaceChar c = false ∧ c < 128 := by
  have hrange : (97 ≤ c ∧ c ≤ 122) ∨ (48 ≤ c ∧ c ≤ 57) := by
    simpa [isWordChar, isLower, isDigit] using h
  have hupper : isUpper c = false := by
    unfold isUpper
    rw [Bool.and_eq_false_iff, decide_eq_false_iff_not, decide_eq_false_iff_not]
    omega
  refine ⟨hupper, ?_, ?_, by omega⟩
  · unfold asciiLower
    rw [hupper]
    rfl
  · simp only [isSpaceChar, Bool.or_eq_false_iff, Bool.and_eq_false_iff, decide_eq_false_iff_not,
      beq_eq_false_iff_ne]
    omega

/-- A capital is no word character, and is read as its small letter. -/
theorem upper_plain {c : Nat} (h : isLower c = true) :
    isUpper (asciiUpper c) = true ∧ isWordChar (asciiUpper c) = false ∧
      asciiLower (asciiUpper c) = c ∧ isSpaceChar (asciiUpper c) = false ∧ asciiUpper c < 128 := by
  have hrange : 97 ≤ c ∧ c ≤ 122 := by simpa [isLower] using h
  have hu : asciiUpper c = c - 32 := by
    unfold asciiUpper
    rw [if_pos h]
  have hupper : isUpper (asciiUpper c) = true := by
    rw [hu]
    unfold isUpper
    rw [Bool.and_eq_true, decide_eq_true_eq, decide_eq_true_eq]
    omega
  refine ⟨hupper, ?_, ?_, ?_, by omega⟩
  · rw [hu]
    simp only [isWordChar, isLower, isDigit, Bool.or_eq_false_iff, Bool.and_eq_false_iff,
      decide_eq_false_iff_not]
    omega
  · unfold asciiLower
    rw [if_pos hupper, hu]
    omega
  · rw [hu]
    simp only [isSpaceChar, Bool.or_eq_false_iff, Bool.and_eq_false_iff, decide_eq_false_iff_not,
      beq_eq_false_iff_ne]
    omega

theorem asciiLower_asciiUpper {c : Nat} (h : isWordChar c = true) :
    asciiLower (asciiUpper c) = c := by
  by_cases hl : isLower c = true
  · exact (upper_plain hl).2.2.1
  · unfold asciiUpper
    rw [if_neg hl]
    exact (wordChar_plain h).2.1

/-! ## §4. Opening the boundaries. -/

/-- Without capitals there is nothing to open. -/
theorem open_plain {s : PyStr} (h : ∀ c ∈ s, isUpper c = false) :
    openAcronyms s = s ∧ openCamel s = s := by
  constructor
  · induction s using openAcronyms.induct with
    | case1 a b c rest htest ih =>
      rw [h a (by simp)] at htest
      cases htest
    | case2 a b c rest htest ih =>
      unfold openAcronyms
      rw [if_neg htest, ih (fun x hx => h x (List.mem_cons_of_mem _ hx))]
    | case3 s hs =>
      unfold openAcronyms
      split
      · next a b c rest => exact absurd rfl (hs a b c rest)
      · rfl
  · induction s using openCamel.induct with
    | case1 a b rest htest ih =>
      rw [h b (by simp), Bool.and_false] at htest
      cases htest
    | case2 a b rest htest ih =>
      unfold openCamel
      rw [if_neg htest, ih (fun x hx => h x (List.mem_cons_of_mem _ hx))]
    | case3 s hs =>
      unfold openCamel
      split
      · next a b rest => exact absurd rfl (hs a b rest)
      · rfl

theorem IsWord.cases {w : PyStr} (h : IsWord w) : ∃ c d cs, w = c :: d :: cs ∧ isLower c = true ∧
    ∀ x ∈ d :: cs, isWordChar x = true := by
  obtain ⟨hlength, hhead, hchars⟩ := h
  match w, hlength with
  | c :: d :: cs, _ =>
    exact ⟨c, d, cs, rfl, hhead c rfl, fun x hx => hchars x (List.mem_cons_of_mem _ hx)⟩

theorem openAcronyms_plain_head {a : Nat} (rest : PyStr) (h : isUpper a = false) :
    openAcronyms (a :: rest) = a :: openAcronyms rest := by
  match rest with
  | [] => rfl
  | [b] => rfl
  | b :: c :: rest =>
    conv_lhs => unfold openAcronyms
    rw [h, Bool.false_and, Bool.false_and]
    rfl

theorem openAcronyms_plain_next {a b : Nat} (rest : PyStr) (h : isUpper b = false) :
    openAcronyms (a :: b :: rest) = a :: openAcronyms (b :: rest) := by
  match rest with
  | [] => rfl
  | c :: rest =>
    conv_lhs => unfold openAcronyms
    rw [h, Bool.and_false, Bool.false_and]
    rfl

/-- No two capitals meet in a joined key. -/
theorem openAcronyms_joined {ws : List PyStr} (hws : ∀ w ∈ ws, IsWord w) {pre : PyStr}
    (hpre : ∀ c ∈ pre, isWordChar c = true) :
    openAcronyms (pre ++ ws.flatMap capitalize) = pre ++ ws.flatMap capitalize := by
  induction ws generalizing pre with
  | nil =>
    rw [List.flatMap_nil, List.append_nil]
    exact (open_plain (fun c hc => (wordChar_plain (hpre c hc)).1)).1
  | cons w ws ih =>
    induction pre with
    | nil =>
      obtain ⟨c, d, cs, rfl, hc, hcs⟩ := (hws w List.mem_cons_self).cases
      have hrest := ih (fun v hv => hws v (List.mem_cons_of_mem _ hv)) hcs
      show openAcronyms (asciiUpper c :: d :: (cs ++ ws.flatMap capitalize)) = _
      rw [openAcronyms_plain_next _ (wordChar_plain (hcs d List.mem_cons_self)).1]
      exact congrArg (asciiUpper c :: ·) hrest
    | cons a pre ihpre =>
      rw [List.cons_append,
        openAcronyms_plain_head _ (wordChar_plain (hpre a List.mem_cons_self)).1,
        ihpre (fun x hx => hpre x (List.mem_cons_of_mem _ hx))]

theorem openCamel_capital {a : Nat} (rest : PyStr) (h : isWordChar a = false) :
    openCamel (a :: rest) = a :: openCamel rest := by
  match rest with
  | [] => rfl
  | b :: rest =>
    conv_lhs => unfold openCamel
    rw [h, Bool.false_and]
    rfl

/-- **Every boundary of a joined key is opened.** -/
theorem openCamel_joined {ws : List PyStr} (hws : ∀ w ∈ ws, IsWord w) {pre : PyStr}
    (hpre : ∀ c ∈ pre, isWordChar c = true) (hne : pre ≠ []) :
    openCamel (pre ++ ws.flatMap capitalize) = pre ++ ws.flatMap (fun w => 95 :: capitalize w) := by
  induction ws generalizing pre with
  | nil =>
    rw [List.flatMap_nil, List.flatMap_nil, List.append_nil]
    exact (open_plain (fun c hc => (wordChar_plain (hpre c hc)).1)).2
  | cons w ws ih =>
    induction pre with
    | nil => exact absurd rfl hne
    | cons a pre ihpre =>
      have ha := hpre a List.mem_cons_self
      cases pre with
      | nil =>
        -- the boundary between the word before and `w`
        obtain ⟨c, d, cs, rfl, hc, hcs⟩ := (hws w List.mem_cons_self).cases
        have hrest := ih (fun v hv => hws v (List.mem_cons_of_mem _ hv)) hcs (by simp)
        obtain ⟨hupper, hcapital, _⟩ := upper_plain hc
        show openCamel (a :: asciiUpper c :: ((d :: cs) ++ ws.flatMap capitalize)) = _
        unfold openCamel
        rw [ha, hupper, openCamel_capital _ hcapital, hrest]
        rfl
      | cons b pre =>
        have hb := (wordChar_plain (hpre b (by simp))).1
        have hrest := ihpre (fun x hx => hpre x (List.mem_cons_of_mem _ hx)) (by simp)
        show openCamel (a :: b :: (pre ++ (w :: ws).flatMap capitalize)) = _
        unfold openCamel
        rw [hb, Bool.and_false]
        exact congrArg (a :: ·) hrest

/-! ## §5. The spellings as the guard reads them. -/

theorem map_lower_word {w : PyStr} (h : ∀ c ∈ w, isWordChar c = true) :
    w.map asciiLower = w := by
  calc w.map asciiLower = w.map id := by
        apply List.map_congr_left
        intro c hc
        exact (wordChar_plain (h c hc)).2.1
    _ = w := List.map_id w

theorem map_lower_capitalize {w : PyStr} (h : IsWord w) : (capitalize w).map asciiLower = w := by
  obtain ⟨c, d, cs, rfl, hc, hcs⟩ := h.cases
  show asciiLower (asciiUpper c) :: (d :: cs).map asciiLower = _
  rw [(upper_plain hc).2.2.1, map_lower_word hcs]

/-- What the second pass reads of a joined key is the key with its words apart. -/
theorem map_lower_opened {ws : List PyStr} (h : ∀ w ∈ ws, IsWord w) :
    (ws.flatMap (fun w => 95 :: capitalize w)).map asciiLower = ws.flatMap (fun w => 95 :: w) := by
  induction ws with
  | nil => rfl
  | cons w ws ih =>
    rw [List.flatMap_cons, List.flatMap_cons, List.map_append,
      ih (fun v hv => h v (List.mem_cons_of_mem _ hv)), List.map_cons,
      map_lower_capitalize (h w List.mem_cons_self)]
    rfl

theorem mem_separated {sep c : Nat} {words : List PyStr} (h : c ∈ separated sep words) :
    c = sep ∨ ∃ w ∈ words, c ∈ w := by
  cases words with
  | nil => cases h
  | cons w ws =>
    rcases List.mem_append.mp h with h | h
    · exact .inr ⟨w, List.mem_cons_self, h⟩
    · obtain ⟨v, hv, hc⟩ := List.mem_flatMap.mp h
      rcases List.mem_cons.mp hc with rfl | hc
      · exact .inl rfl
      · exact .inr ⟨v, List.mem_cons_of_mem _ hv, hc⟩

theorem strip_of_ends {s : PyStr} (hhead : ∀ c ∈ s.head?, isSpaceChar c = false)
    (hlast : ∀ c ∈ s.getLast?, isSpaceChar c = false) : strip s = s := by
  have hdrop : ∀ {t : PyStr}, (∀ c ∈ t.head?, isSpaceChar c = false) →
      t.dropWhile isSpaceChar = t := by
    intro t ht
    cases t with
    | nil => rfl
    | cons c t => rw [List.dropWhile_cons_of_neg (by rw [ht c rfl]; exact Bool.false_ne_true)]
  unfold strip
  rw [hdrop hhead, hdrop (by rw [List.head?_reverse]; exact hlast), List.reverse_reverse]

/-- A separated key ends in a word. -/
theorem last_separated (sep : Nat) (ws : List PyStr) {w : PyStr} (hw : IsWord w)
    (hws : ∀ v ∈ ws, IsWord v) :
    ∃ c, (w ++ ws.flatMap (fun v => sep :: v)).getLast? = some c ∧ isWordChar c = true := by
  induction ws generalizing w with
  | nil =>
    rw [List.flatMap_nil, List.append_nil]
    have hsome := List.getLast?_eq_some_getLast hw.ne_nil
    exact ⟨_, hsome, hw.chars _ (List.getLast_mem hw.ne_nil)⟩
  | cons v ws ih =>
    obtain ⟨c, hc, hchar⟩ := ih (hws v List.mem_cons_self)
      (fun u hu => hws u (List.mem_cons_of_mem _ hu))
    refine ⟨c, ?_, hchar⟩
    have hsplit : w ++ (v :: ws).flatMap (fun v => sep :: v)
        = (w ++ [sep]) ++ (v ++ ws.flatMap (fun v => sep :: v)) := by simp
    rw [hsplit, List.getLast?_append, hc]
    rfl

theorem strip_separated (sep : Nat) {words : List PyStr} (h : ∀ w ∈ words, IsWord w) :
    strip (separated sep words) = separated sep words := by
  cases words with
  | nil => rfl
  | cons w ws =>
    have hw := h w List.mem_cons_self
    obtain ⟨c, d, cs, rfl, hc, _⟩ := hw.cases
    obtain ⟨l, hl, hchar⟩ := last_separated sep ws hw (fun v hv => h v (List.mem_cons_of_mem _ hv))
    apply strip_of_ends
    · intro x hx
      cases hx
      exact (wordChar_plain (hw.chars c List.mem_cons_self)).2.2.1
    · intro x hx
      have hsame := Option.mem_unique hx (Option.mem_def.mpr hl)
      rw [hsame]
      exact (wordChar_plain hchar).2.2.1

/-- A separated key is read as its words, in both passes. -/
theorem isSensitiveKey_separated (rt : Runtime) {sep : Nat}
    (hsep : isWordChar sep = false ∧ isUpper sep = false ∧ sep < 128)
    {words : List PyStr} (h : ∀ w ∈ words, IsWord w) :
    isSensitiveKey rt (separated sep words) = endsSensitive words := by
  obtain ⟨hword, hupper, hascii⟩ := hsep
  have hplain : ∀ c ∈ separated sep words, isUpper c = false ∧ asciiLower c = c ∧ c < 128 := by
    intro c hc
    rcases mem_separated hc with rfl | ⟨w, hw, hc⟩
    · refine ⟨hupper, ?_, hascii⟩
      unfold asciiLower
      rw [hupper]
      rfl
    · have hchar := wordChar_plain ((h w hw).chars c hc)
      exact ⟨hchar.1, hchar.2.1, hchar.2.2.2⟩
  have hasciiAll : isAscii (separated sep words) = true := by
    unfold isAscii
    rw [List.all_eq_true]
    intro c hc
    exact decide_eq_true (hplain c hc).2.2
  have hlower : (separated sep words).map asciiLower = separated sep words := by
    calc (separated sep words).map asciiLower = (separated sep words).map id := by
          apply List.map_congr_left
          intro c hc
          exact (hplain c hc).2.1
      _ = separated sep words := List.map_id _
  obtain ⟨hacronyms, hcamel⟩ := open_plain (fun c hc => (hplain c hc).1)
  unfold isSensitiveKey
  simp only [rt.nfkc_ascii _ hasciiAll, strip_separated sep h, hacronyms, hcamel,
    rt.casefold_ascii _ hasciiAll, hlower, findWords_separated hword h, Bool.or_self]

/-- The characters of a joined key, and of one in capitals. -/
theorem ascii_of_word {s : PyStr} (h : ∀ c ∈ s, isSpaceChar c = false ∧ c < 128) :
    isAscii s = true ∧ strip s = s := by
  constructor
  · unfold isAscii
    rw [List.all_eq_true]
    intro c hc
    exact decide_eq_true (h c hc).2
  · exact strip_of_forall (fun c hc => (h c hc).1)

/-- Capitals are read as the small letters that they stand for, in the first pass. -/
theorem isSensitiveKey_screaming (rt : Runtime) {words : List PyStr} (h : ∀ w ∈ words, IsWord w)
    (hsensitive : endsSensitive words = true) :
    isSensitiveKey rt ((separated 95 words).map asciiUpper) = true := by
  have hchars : ∀ c ∈ separated 95 words, c = 95 ∨ isWordChar c = true := by
    intro c hc
    rcases mem_separated hc with rfl | ⟨w, hw, hc⟩
    · exact .inl rfl
    · exact .inr ((h w hw).chars c hc)
  obtain ⟨hascii, hstrip⟩ := ascii_of_word (s := (separated 95 words).map asciiUpper) (by
    intro c hc
    obtain ⟨d, hd, rfl⟩ := List.mem_map.mp hc
    rcases hchars d hd with rfl | hd
    · decide
    · by_cases hl : isLower d = true
      · exact ⟨(upper_plain hl).2.2.2.1, (upper_plain hl).2.2.2.2⟩
      · unfold asciiUpper
        rw [if_neg hl]
        exact ⟨(wordChar_plain hd).2.2.1, (wordChar_plain hd).2.2.2⟩)
  have hlower : ((separated 95 words).map asciiUpper).map asciiLower = separated 95 words := by
    rw [List.map_map]
    calc (separated 95 words).map (asciiLower ∘ asciiUpper) = (separated 95 words).map id := by
          apply List.map_congr_left
          intro c hc
          rcases hchars c hc with rfl | hc
          · decide
          · exact asciiLower_asciiUpper hc
      _ = separated 95 words := List.map_id _
  have hwords : findWords (separated 95 words) [] = words := findWords_separated (by decide) h
  unfold isSensitiveKey
  simp only [rt.nfkc_ascii _ hascii, hstrip, rt.casefold_ascii _ hascii, hlower, hwords, hsensitive,
    Bool.true_or]

theorem mem_capitalize {w : PyStr} (h : IsWord w) {c : Nat} (hc : c ∈ capitalize w) :
    isSpaceChar c = false ∧ c < 128 := by
  obtain ⟨a, d, cs, rfl, ha, hcs⟩ := h.cases
  rcases List.mem_cons.mp hc with rfl | hc
  · exact ⟨(upper_plain ha).2.2.2.1, (upper_plain ha).2.2.2.2⟩
  · exact ⟨(wordChar_plain (hcs c hc)).2.2.1, (wordChar_plain (hcs c hc)).2.2.2⟩

theorem mem_capitals {ws : List PyStr} (h : ∀ w ∈ ws, IsWord w) {c : Nat}
    (hc : c ∈ ws.flatMap capitalize) : isSpaceChar c = false ∧ c < 128 := by
  obtain ⟨w, hw, hc⟩ := List.mem_flatMap.mp hc
  exact mem_capitalize (h w hw) hc

/-- A key whose second pass finds the words. -/
theorem isSensitiveKey_opened (rt : Runtime) {key : PyStr} {words : List PyStr}
    (hkey : ∀ c ∈ key, isSpaceChar c = false ∧ c < 128) (h : ∀ w ∈ words, IsWord w)
    (hacronyms : openAcronyms key = key)
    (hopened : isAscii (openCamel key) = true)
    (hlower : (openCamel key).map asciiLower = separated 95 words)
    (hsensitive : endsSensitive words = true) : isSensitiveKey rt key = true := by
  obtain ⟨hascii, hstrip⟩ := ascii_of_word hkey
  have hwords : findWords (separated 95 words) [] = words := findWords_separated (by decide) h
  unfold isSensitiveKey
  simp only [rt.nfkc_ascii _ hascii, hstrip, hacronyms, rt.casefold_ascii _ hopened, hlower, hwords,
    hsensitive, Bool.or_true]

theorem isAscii_opened {pre : PyStr} (hpre : isAscii pre = true) {ws : List PyStr}
    (h : ∀ w ∈ ws, IsWord w) : isAscii (pre ++ ws.flatMap (fun w => 95 :: capitalize w)) = true := by
  unfold isAscii at hpre ⊢
  rw [List.all_append, hpre, Bool.true_and, List.all_eq_true]
  intro c hc
  obtain ⟨w, hw, hc⟩ := List.mem_flatMap.mp hc
  rcases List.mem_cons.mp hc with rfl | hc
  · rfl
  · exact decide_eq_true (mem_capitalize (h w hw) hc).2

theorem isSensitiveKey_camel (rt : Runtime) {w : PyStr} {ws : List PyStr} (hw : IsWord w)
    (hws : ∀ v ∈ ws, IsWord v) (hsensitive : endsSensitive (w :: ws) = true) :
    isSensitiveKey rt (w ++ ws.flatMap capitalize) = true := by
  have hchars : ∀ c ∈ w, isSpaceChar c = false ∧ c < 128 :=
    fun c hc => ⟨(wordChar_plain (hw.chars c hc)).2.2.1, (wordChar_plain (hw.chars c hc)).2.2.2⟩
  have hopen := openCamel_joined hws hw.chars hw.ne_nil
  apply isSensitiveKey_opened rt _ (List.forall_mem_cons.mpr ⟨hw, hws⟩)
    (openAcronyms_joined hws hw.chars) _ _ hsensitive
  · intro c hc
    rcases List.mem_append.mp hc with hc | hc
    · exact hchars c hc
    · exact mem_capitals hws hc
  · rw [hopen]
    exact isAscii_opened (ascii_of_word hchars).1 hws
  · rw [hopen, List.map_append, map_lower_word hw.chars, map_lower_opened hws]
    rfl

theorem isSensitiveKey_pascal (rt : Runtime) {w : PyStr} {ws : List PyStr} (hw : IsWord w)
    (hws : ∀ v ∈ ws, IsWord v) (hsensitive : endsSensitive (w :: ws) = true) :
    isSensitiveKey rt ((w :: ws).flatMap capitalize) = true := by
  have hall := List.forall_mem_cons.mpr ⟨hw, hws⟩
  have hacronyms : openAcronyms ((w :: ws).flatMap capitalize) = (w :: ws).flatMap capitalize :=
    @openAcronyms_joined (w :: ws) hall [] (by simp)
  obtain ⟨c, d, cs, rfl, hc, hcs⟩ := hw.cases
  obtain ⟨_, hcapital, hlowerc, _, hascii⟩ := upper_plain hc
  have hopen : openCamel (((c :: d :: cs) :: ws).flatMap capitalize)
      = (asciiUpper c :: d :: cs) ++ ws.flatMap (fun w => 95 :: capitalize w) := by
    show openCamel (asciiUpper c :: ((d :: cs) ++ ws.flatMap capitalize)) = _
    rw [openCamel_capital _ hcapital, openCamel_joined hws hcs (by simp)]
    rfl
  apply isSensitiveKey_opened rt _ hall hacronyms _ _ hsensitive
  · exact fun x hx => mem_capitals hall hx
  · rw [hopen]
    apply isAscii_opened _ hws
    unfold isAscii
    rw [List.all_cons, List.all_eq_true.mpr (fun x hx => decide_eq_true
      (wordChar_plain (hcs x hx)).2.2.2), Bool.and_true]
    exact decide_eq_true hascii
  · rw [hopen, List.map_append, map_lower_opened hws, List.map_cons, hlowerc, map_lower_word hcs]
    rfl

/-- **Credential keys are recognised in every spelling**, and a key that ends in no credential
name is not taken for one in the spellings that keep its words apart. -/
theorem credential_spellings (rt : Runtime) (words : List PyStr) (hne : words ≠ [])
    (h : ∀ w ∈ words, IsWord w) :
    (Listed words → ∀ spelling : Spelling, isSensitiveKey rt (spelling.spell words) = true) ∧
    (¬ Listed words → ∀ spelling ∈ [Spelling.snake, .kebab, .dotted],
      isSensitiveKey rt (spelling.spell words) = false) := by
  constructor
  · intro hlisted spelling
    have hsensitive := (endsSensitive_iff words).mpr hlisted
    cases words with
    | nil => exact absurd rfl hne
    | cons w ws =>
      obtain ⟨hw, hws⟩ := List.forall_mem_cons.mp h
      cases spelling with
      | snake => exact (isSensitiveKey_separated rt (by decide) h).trans hsensitive
      | kebab => exact (isSensitiveKey_separated rt (by decide) h).trans hsensitive
      | dotted => exact (isSensitiveKey_separated rt (by decide) h).trans hsensitive
      | spaced => exact (isSensitiveKey_separated rt (by decide) h).trans hsensitive
      | screaming => exact isSensitiveKey_screaming rt h hsensitive
      | camel => exact isSensitiveKey_camel rt hw hws hsensitive
      | pascal => exact isSensitiveKey_pascal rt hw hws hsensitive
  · intro hlisted spelling hspelling
    have hplain : endsSensitive words = false := by
      rw [Bool.eq_false_iff, ne_eq, endsSensitive_iff]
      exact hlisted
    simp only [List.mem_cons, List.not_mem_nil, or_false] at hspelling
    rcases hspelling with rfl | rfl | rfl
    · exact (isSensitiveKey_separated rt (by decide) h).trans hplain
    · exact (isSensitiveKey_separated rt (by decide) h).trans hplain
    · exact (isSensitiveKey_separated rt (by decide) h).trans hplain

instance (w : PyStr) : Decidable (IsWord w) :=
  decidable_of_iff (2 ≤ w.length ∧ (∀ c ∈ w.head?, isLower c = true) ∧
    ∀ c ∈ w, isWordChar c = true)
    ⟨fun h => ⟨h.1, h.2.1, h.2.2⟩, fun h => ⟨h.length, h.head, h.chars⟩⟩

/-- `api_key` is a credential in all spellings; `token_count` is telemetry. -/
theorem credential_spellings_sample :
    (∀ spelling : Spelling, isSensitiveKey .ascii (spelling.spell [py "api", py "key"]) = true) ∧
    isSensitiveKey .ascii (py "token_count") = false := by
  have hkey : Listed [py "api", py "key"] := .inr ⟨[], py "api", py "key", rfl, by decide⟩
  have hcount : ¬ Listed [py "token", py "count"] := by
    rw [← endsSensitive_iff]
    decide
  constructor
  · exact (credential_spellings .ascii [py "api", py "key"] (by decide) (by decide)).1 hkey
  · exact (credential_spellings .ascii [py "token", py "count"] (by decide) (by decide)).2 hcount
      .snake (by decide)

end Lyte
