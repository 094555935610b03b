import Lyte.Connectors.StrictJson
import Lyte.Release.BuildReceipt

/-
  Lyte.Release.ReceiptFailClosed — what observing a receipt may raise.

  `json.loads` fails in more ways than `_parse_document` names: the scanner
  raises RecursionError where containers nest too deep, and `int` a ValueError
  that is no JSONDecodeError where an integer has more than 4300 digits;
  `json.dumps` raises RecursionError as well.  Neither `except` clause catches
  them.

      observe_receipt_closed   the observation returns exactly where none of the
                               three happens.
-/

namespace Lyte

/-! ## §1. `json.loads`, with all its failures. -/

/-- How `json.loads(raw, object_pairs_hook=_reject_duplicate_keys)` fails. -/
inductive LoadFault where
  /-- UnicodeDecodeError -/
  | undecodable
  /-- JSONDecodeError -/
  | malformed
  /-- BuildReceiptError of `_reject_duplicate_keys` -/
  | duplicate
  /-- ValueError: more than 4300 digits -/
  | digits
  /-- RecursionError -/
  | recursion
  /-- the scanner ran out of fuel: never (`loadReceipt_terminates`) -/
  | fuel
deriving DecidableEq

/-- The failure is one that `_parse_document` does not catch. -/
def LoadFault.escapes : LoadFault → Bool
  | .digits => true
  | .recursion => true
  | _ => false

section Load

variable (rt : Interpreter)

/-- `_reject_duplicate_keys`. -/
def rejectDuplicateKeys (pairs : List (PyStr × Json)) : Except LoadFault Json :=
  if (duplicateKey? [] pairs).isSome then .error .duplicate else .ok (.dict pairs)

/-- A number as `json` converts it. -/
def receiptNumber (negative : Bool) (digits fraction : PyStr) : Except LoadFault Json :=
  if fraction.isEmpty then
    if 4300 < digits.length then .error .digits
    else .ok (.int (if negative then -(natOfDigits digits) else natOfDigits digits))
  else .ok (.float (rt.floatOfText ((if negative then [45] else []) ++ digits ++ fraction)))

/-- A value that is no container; without a `parse_constant` the three constants are
floats. -/
def receiptAtom (cs : PyStr) : Except LoadFault (Json × PyStr) :=
  if (py "null").isPrefixOf cs then .ok (.null, cs.drop 4)
  else if (py "true").isPrefixOf cs then .ok (.bool true, cs.drop 4)
  else if (py "false").isPrefixOf cs then .ok (.bool false, cs.drop 5)
  else if (py "NaN").isPrefixOf cs then .ok (.float ⟨0x7FF8000000000000⟩, cs.drop 3)
  else if (py "Infinity").isPrefixOf cs then .ok (.float ⟨0x7FF0000000000000⟩, cs.drop 8)
  else if (py "-Infinity").isPrefixOf cs then .ok (.float ⟨0xFFF0000000000000⟩, cs.drop 9)
  else match scanWhole cs with
    | none => .error .malformed
    | some (negative, digits, rest) => do
        let fraction := scanFraction rest
        let exponent := scanExponent fraction.2
        let v ← receiptNumber rt negative digits (fraction.1 ++ exponent.1)
        return (v, exponent.2)

mutual
/-- `scan_once`: a value, and what follows it. -/
def receiptValue : Nat → Nat → PyStr → Except LoadFault (Json × PyStr)
  | 0, _, _ => .error .fuel
  | fuel + 1, depth, cs =>
      match cs with
      | [] => .error .malformed
      | c :: rest =>
          if c = 34 then
            match scanString rest false [] with
            | none => .error .malformed
            | some (s, rest) => .ok (.str s, rest)
          else if c = 123 then
            if depth = 0 then .error .recursion
            else match skipSpace rest with
              | 125 :: rest => .ok (.dict [], rest)
              | rest => do
                  let (pairs, rest) ← receiptFields fuel (depth - 1) rest
                  let v ← rejectDuplicateKeys pairs
                  return (v, rest)
          else if c = 91 then
            if depth = 0 then .error .recursion
            else match skipSpace rest with
              | 93 :: rest => .ok (.list [], rest)
              | rest => do
                  let (items, rest) ← receiptItems fuel (depth - 1) rest
                  return (.list items, rest)
          else receiptAtom rt (c :: rest)

/-- The pairs of an object up to its closing brace. -/
def receiptFields : Nat → Nat → PyStr → Except LoadFault (List (PyStr × Json) × PyStr)
  | 0, _, _ => .error .fuel
  | fuel + 1, depth, cs =>
      match cs with
      | 34 :: rest =>
          match scanString rest false [] with
          | none => .error .malformed
          | some (key, rest) =>
              match skipSpace rest with
              | 58 :: rest => do
                  let (v, rest) ← receiptValue fuel depth (skipSpace rest)
                  match skipSpace rest with
                  | 125 :: rest => return ([(key, v)], rest)
                  | 44 :: rest => do
                      let (pairs, rest) ← receiptFields fuel depth (skipSpace rest)
                      return ((key, v) :: pairs, rest)
                  | _ => throw .malformed
              | _ => .error .malformed
      | _ => .error .malformed

/-- The items of an array up to its closing bracket. -/
def receiptItems : Nat → Nat → PyStr → Except LoadFault (List Json × PyStr)
  | 0, _, _ => .error .fuel
  | fuel + 1, depth, cs => do
      let (v, rest) ← receiptValue fuel depth cs
      match skipSpace rest with
      | 93 :: rest => return ([v], rest)
      | 44 :: rest => do
          let (items, rest) ← receiptItems fuel depth (skipSpace rest)
          return (v :: items, rest)
      | _ => throw .malformed
end

/-- The document of a text, all of it. -/
def loadText (text : PyStr) : Except LoadFault Json := do
  let cs := skipSpace text
  let (v, rest) ← receiptValue rt (2 * cs.length + 1) rt.scanDepth cs
  if (skipSpace rest).isEmpty then return v else throw .malformed

/-- `json.loads(raw, object_pairs_hook=_reject_duplicate_keys)`. -/
def loadReceipt (raw : List UInt8) : Except LoadFault Json :=
  match decodeText raw with
  | none => .error .undecodable
  | some text => loadText rt text

/-! ## §2. Observing a receipt. -/

/-- What is raised, to be caught by `observe_build_receipt` or not. -/
inductive Raised where
  | caught (e : BuildError)
  | escaped (fault : LoadFault)

/-- The float literals that `json.dumps` writes: the three constants have names of their
own. -/
def dumpsFloat (f : PyFloat) : PyStr :=
  match f.num with
  | .nan => py "NaN"
  | .inf false => py "Infinity"
  | .inf true => py "-Infinity"
  | .fin _ => rt.floatRepr f

/-- `_parse_document`; `dumpDepth` is how deep `json.dumps` may nest. -/
def parseStored (dumpDepth : Nat) (raw : List UInt8) : Except Raised (List (PyStr × Json)) :=
  match loadReceipt rt raw with
  | .error fault =>
      if fault.escapes then .error (.escaped fault)
      else .error (.caught (.receipt (py "receipt is not unambiguous UTF-8 JSON")))
  | .ok (.dict fields) =>
      if !(Json.dict fields).fits dumpDepth then .error (.escaped .recursion)
      else if raw ≠ canonicalBytes { rt.toRuntime with floatRepr := dumpsFloat rt } (.dict fields)
          ++ [10] then
        .error (.caught (.receipt (py "receipt bytes are not canonical JSON")))
      else .ok fields
  | .ok _ => .error (.caught (.receipt (py "receipt root must be a JSON object")))

/-- The end of the `try` block, on a document that was parsed. -/
def measureDocument (root : Directory) (expectedSourceRevision : Option PyStr) (required : Bool)
    (raw : List UInt8) (document : List (PyStr × Json)) :
    Except BuildError BuildReceiptObservation := do
  let receipt ← validateDocument document
  let observed (state : ReceiptState) (failures : List PyStr) : BuildReceiptObservation :=
    ⟨state, decide (state = .verified), required, some (rt.sha256 raw), some receipt.payloadSha256,
      some receipt.revision, failures, some raw, some (.dict document)⟩
  if expectedSourceRevision ≠ some receipt.revision then
    return observed .sourceMismatch [py "BUILD_RECEIPT_SOURCE_MISMATCH"]
  if manifestDigest rt.toRuntime receipt.revision receipt.entries ≠ receipt.payloadSha256 then
    return observed .invalid [py "BUILD_RECEIPT_MANIFEST_DIGEST_MISMATCH"]
  let currentEntries ← collectPayloadEntries rt.toRuntime root
  if currentEntries ≠ receipt.entries then
    return observed .payloadMismatch [py "BUILD_RECEIPT_PAYLOAD_MISMATCH"]
  return observed .verified []

/-- The `try` block of `observe_build_receipt`, on the bytes of the receipt. -/
def measureStored (dumpDepth : Nat) (root : Directory) (expectedSourceRevision : Option PyStr)
    (required : Bool) (raw : List UInt8) : Except Raised BuildReceiptObservation :=
  if raw.isEmpty || maxReceiptBytes < raw.length then
    .error (.caught (.receipt (py "receipt size is outside the accepted bounds")))
  else match parseStored rt dumpDepth raw with
    | .error e => .error e
    | .ok document => match measureDocument rt root expectedSourceRevision required raw document with
        | .error e => .error (.caught e)
        | .ok observation => .ok observation

/-- `observe_build_receipt`, of a stored receipt: what it returns, or what it raises. -/
def observeStored (dumpDepth : Nat) (root : Directory) (expectedSourceRevision : Option PyStr)
    (required : Bool) (stored : Option Node) : Except LoadFault BuildReceiptObservation :=
  let missing := BuildReceiptObservation.unread
    (if required then .missing else .missingOptionalLocal) required (py "BUILD_RECEIPT_MISSING")
  let invalid := BuildReceiptObservation.unread .invalid required (py "BUILD_RECEIPT_INVALID")
  match stored with
  | none => .ok missing
  | some node =>
      if !node.pathExists then .ok missing
      else if node.isSymlink || !node.isFile then
        .ok (.unread .invalid required (py "BUILD_RECEIPT_NOT_REGULAR_FILE"))
      else match node.readBytes with
        | .error _ => .ok invalid
        | .ok raw =>
            match measureStored rt dumpDepth root expectedSourceRevision required raw with
            | .ok observation => .ok observation
            | .error (.caught _) => .ok invalid
            | .error (.escaped fault) => .error fault

end Load

/-! ## §3. The scanner. -/

/-- The brackets and braces that open something. -/
def openings (cs : PyStr) : Nat := cs.countP (fun c => c == 91 || c == 123)

/-- No run of digits is longer than `int` takes, and there are at most so many
openings. -/
structure Modest (depth : Nat) (cs : PyStr) : Prop where
  openings : openings cs ≤ depth
  digits : ∀ run : PyStr, run <:+: cs → run.all isDigit = true → run.length ≤ 4300

theorem openings_suffix {cs rest : PyStr} (h : rest <:+ cs) : openings rest ≤ openings cs :=
  h.sublist.countP_le

theorem Modest.suffix {depth : Nat} {cs rest : PyStr} (h : Modest depth cs) (hs : rest <:+ cs) :
    Modest depth rest where
  openings := Nat.le_trans (openings_suffix hs) h.openings
  digits run hrun hall := h.digits run (hrun.trans hs.isInfix) hall

/-- Behind an opening one less is left. -/
theorem openings_cons {c : Nat} (hc : c = 91 ∨ c = 123) (cs : PyStr) :
    openings (c :: cs) = openings cs + 1 := by
  unfold openings
  rw [List.countP_cons]
  rcases hc with rfl | rfl
  · rfl
  · rfl

theorem Modest.behind {depth c : Nat} {cs : PyStr} (h : Modest depth (c :: cs))
    (hc : c = 91 ∨ c = 123) : depth ≠ 0 ∧ Modest (depth - 1) cs := by
  have hopen := h.openings
  rw [openings_cons hc] at hopen
  refine ⟨by omega, by omega, ?_⟩
  exact (h.suffix (List.suffix_cons c cs)).digits

theorem Modest.digits_length {depth : Nat} {cs run : PyStr} (h : Modest depth cs)
    (hrun : run <:+: cs) (hall : run.all isDigit = true) : ¬ 4300 < run.length :=
  Nat.not_lt.mpr (h.digits run hrun hall)

theorem skipSpace_suffix (cs : PyStr) : skipSpace cs <:+ cs := List.dropWhile_suffix _

/-- The digits of a number are a run of its text. -/
theorem scanWhole_parts {cs digits rest : PyStr} {negative : Bool}
    (h : scanWhole cs = some (negative, digits, rest)) :
    digits <:+: cs ∧ digits.all isDigit = true ∧ rest <:+ cs := by
  have hbehind : ∀ {xs : PyStr} {b : Bool}, (match xs with
      | [] => none
      | c :: rest =>
          if c = 48 then some (b, [48], rest)
          else if isDigit c then some (b, c :: rest.takeWhile isDigit, rest.dropWhile isDigit)
          else none) = some (negative, digits, rest) →
      digits <:+: xs ∧ digits.all isDigit = true ∧ rest <:+ xs := by
    intro xs b hx
    cases xs with
    | nil => cases hx
    | cons c xs =>
      simp only at hx
      by_cases hc : c = 48
      · rw [if_pos hc] at hx
        cases hx
        rw [hc]
        exact ⟨⟨[], _, rfl⟩, rfl, List.suffix_cons _ _⟩
      · rw [if_neg hc] at hx
        by_cases hd : isDigit c = true
        · rw [if_pos hd] at hx
          cases hx
          refine ⟨⟨[], xs.dropWhile isDigit, ?_⟩, ?_, ?_⟩
          · rw [List.nil_append, List.cons_append, List.takeWhile_append_dropWhile]
          · rw [List.all_cons, hd, Bool.true_and]
            exact List.all_takeWhile
          · exact (List.dropWhile_suffix _).trans (List.suffix_cons _ _)
        · rw [if_neg hd] at hx
          cases hx
  unfold scanWhole at h
  split at h
  next negative' cs' hsign =>
  obtain ⟨hdigits, hall, hrest⟩ := hbehind h
  split at hsign
  · cases hsign
    exact ⟨hdigits.trans (List.suffix_cons _ _).isInfix, hall, hrest.trans (List.suffix_cons _ _)⟩
  · cases hsign
    exact ⟨hdigits, hall, hrest⟩

theorem scanFraction_suffix (cs : PyStr) : (scanFraction cs).2 <:+ cs := by
  unfold scanFraction
  split
  · next d rest =>
    split
    · exact (List.dropWhile_suffix _).trans ⟨[46, d], rfl⟩
    · exact List.suffix_refl _
  · exact List.suffix_refl _

theorem scanSign_suffix (cs : PyStr) : (scanSign cs).2 <:+ cs := by
  unfold scanSign
  split
  · split
    · exact List.suffix_cons _ _
    · exact List.suffix_refl _
  · exact List.suffix_refl _

theorem scanExponent_suffix (cs : PyStr) : (scanExponent cs).2 <:+ cs := by
  unfold scanExponent
  split
  · next e rest =>
    split
    · split
      · next d rest' hd =>
        split
        · have hsign := scanSign_suffix rest
          rw [hd] at hsign
          exact (List.dropWhile_suffix _).trans
            ((List.suffix_cons d rest').trans (hsign.trans (List.suffix_cons e rest)))
        · exact List.suffix_refl _
      · exact List.suffix_refl _
    · exact List.suffix_refl _
  · exact List.suffix_refl _

/-- What a scan of `cs` promises: it does not lack fuel, a modest text makes it fail only as
`_parse_document` expects, it leaves a later part of the text, and what it read is nested no
deeper than the text has openings. -/
structure Scans {α : Type} (nests : Nat → α → Bool) (depth : Nat) (cs : PyStr)
    (r : Except LoadFault (α × PyStr)) : Prop where
  fuel : r ≠ .error .fuel
  modest : Modest depth cs → ∀ fault, r = .error fault → fault.escapes = false
  rest : ∀ a rest, r = .ok (a, rest) → rest <:+ cs ∧ rest.length < cs.length
  nests : ∀ a rest, r = .ok (a, rest) → ∀ k, openings cs ≤ k → nests k a = true

section Scan

variable {α β : Type} {nests : Nat → α → Bool} {nests' : Nat → β → Bool} {depth depth' : Nat}
variable {cs cs' : PyStr}

theorem scans_error {fault : LoadFault} (hfuel : fault ≠ .fuel)
    (h : Modest depth cs → fault.escapes = false) :
    Scans nests depth cs (.error fault : Except LoadFault (α × PyStr)) where
  fuel heq := by
    cases heq
    exact hfuel rfl
  modest hm fault' heq := by
    cases heq
    exact h hm
  rest _ _ heq := by cases heq
  nests _ _ heq := by cases heq

/-- A failure that `_parse_document` expects. -/
theorem scans_refused {fault : LoadFault} (hfuel : fault ≠ .fuel) (h : fault.escapes = false) :
    Scans nests depth cs (.error fault : Except LoadFault (α × PyStr)) :=
  scans_error hfuel (fun _ => h)

theorem scans_ok {a : α} {rest : PyStr} (hrest : rest <:+ cs) (hlt : rest.length < cs.length)
    (h : ∀ k, openings cs ≤ k → nests k a = true) :
    Scans nests depth cs (.ok (a, rest) : Except LoadFault (α × PyStr)) where
  fuel heq := by cases heq
  modest _ _ heq := by cases heq
  rest b rest' heq := by
    cases heq
    exact ⟨hrest, hlt⟩
  nests b rest' heq := by
    cases heq
    exact h

/-- A scan of a later part of the text, and a continuation. -/
theorem Scans.bind {r : Except LoadFault (α × PyStr)} {f : α × PyStr → Except LoadFault (β × PyStr)}
    (h : Scans nests depth' cs' r) (hmodest : Modest depth cs → Modest depth' cs')
    (hf : ∀ a rest, rest <:+ cs' → rest.length < cs'.length →
      (∀ k, openings cs' ≤ k → nests k a = true) → Scans nests' depth cs (f (a, rest))) :
    Scans nests' depth cs (r >>= f) := by
  cases r with
  | error fault =>
    apply scans_error
    · intro heq
      exact h.fuel (congrArg Except.error heq)
    · intro hm
      exact h.modest (hmodest hm) fault rfl
  | ok p =>
    obtain ⟨a, rest⟩ := p
    obtain ⟨hrest, hlt⟩ := h.rest a rest rfl
    exact hf a rest hrest hlt (h.nests a rest rfl)

/-- A computation between two scans. -/
theorem scans_between {γ : Type} {r : Except LoadFault γ} {f : γ → Except LoadFault (β × PyStr)}
    (hfuel : r ≠ .error .fuel) (h : Modest depth cs → ∀ fault, r = .error fault →
      fault.escapes = false) (hf : ∀ c, r = .ok c → Scans nests' depth cs (f c)) :
    Scans nests' depth cs (r >>= f) := by
  cases r with
  | error fault =>
    apply scans_error
    · intro heq
      exact hfuel (congrArg Except.error heq)
    · intro hm
      exact h hm fault rfl
  | ok c => exact hf c rfl

end Scan

section Atoms

variable (rt : Interpreter)

theorem receiptNumber_ok {negative : Bool} {digits fraction : PyStr} {v : Json}
    (h : receiptNumber rt negative digits fraction = .ok v) (k : Nat) : v.fits k = true := by
  unfold receiptNumber at h
  split at h
  · split at h
    · cases h
    · cases h
      cases negative <;> simp [Json.fits]
  · cases h
    simp [Json.fits]

theorem receiptNumber_fault {negative : Bool} {digits fraction : PyStr} {fault : LoadFault}
    (h : receiptNumber rt negative digits fraction = .error fault) :
    fault = .digits ∧ 4300 < digits.length := by
  unfold receiptNumber at h
  split at h
  · split at h
    · next hlen =>
      cases h
      exact ⟨rfl, hlen⟩
    · cases h
  · cases h

/-- A word of the grammar. -/
theorem scans_word {depth : Nat} {cs word : PyStr} {n : Nat} {v : Json}
    (hp : word.isPrefixOf cs = true) (hn : word.length = n) (hpos : 0 < n)
    (hv : ∀ k, v.fits k = true) :
    Scans (fun k v => Json.fits k v) depth cs (.ok (v, cs.drop n)) := by
  have hle := (List.isPrefixOf_iff_prefix.mp hp).length_le
  apply scans_ok (List.drop_suffix _ _)
  · rw [List.length_drop]
    omega
  · intro k _
    exact hv k

theorem receiptAtom_scans (depth : Nat) (cs : PyStr) :
    Scans (fun k v => Json.fits k v) depth cs (receiptAtom rt cs) := by
  unfold receiptAtom
  split
  · next hp => exact scans_word hp rfl (by decide) (fun k => by simp [Json.fits])
  split
  · next hp => exact scans_word hp rfl (by decide) (fun k => by simp [Json.fits])
  split
  · next hp => exact scans_word hp rfl (by decide) (fun k => by simp [Json.fits])
  split
  · next hp => exact scans_word hp rfl (by decide) (fun k => by simp [Json.fits])
  split
  · next hp => exact scans_word hp rfl (by decide) (fun k => by simp [Json.fits])
  split
  · next hp => exact scans_word hp rfl (by decide) (fun k => by simp [Json.fits])
  split
  · exact scans_refused (by decide) rfl
  · next negative digits rest hwhole =>
    obtain ⟨hdigits, hall, hrest⟩ := scanWhole_parts hwhole
    have hlt := scanWhole_length hwhole
    have hfraction := scanFraction_length rest
    have hexponent := scanExponent_length (scanFraction rest).2
    apply scans_between
    · intro heq
      have hfault := (receiptNumber_fault rt heq).1
      cases hfault
    · intro hm fault heq
      exact absurd (receiptNumber_fault rt heq).2 (hm.digits_length hdigits hall)
    · intro v hv
      apply scans_ok
      · exact (scanExponent_suffix _).trans ((scanFraction_suffix _).trans hrest)
      · show (scanExponent (scanFraction rest).2).2.length < cs.length
        omega
      · intro k _
        exact receiptNumber_ok rt hv k

/-- **The scanner keeps its promises**: two units of fuel for every character are enough. -/
theorem receipt_scans (fuel : Nat) :
    (∀ depth cs, 2 * cs.length + 1 ≤ fuel →
      Scans (fun k v => Json.fits k v) depth cs (receiptValue rt fuel depth cs)) ∧
    (∀ depth cs, 2 * cs.length + 1 ≤ fuel →
      Scans Json.fitsFields depth cs (receiptFields rt fuel depth cs)) ∧
    ∀ depth cs, 2 * cs.length + 2 ≤ fuel →
      Scans Json.fitsItems depth cs (receiptItems rt fuel depth cs) := by
  induction fuel with
  | zero => exact ⟨fun _ _ h => by omega, fun _ _ h => by omega, fun _ _ h => by omega⟩
  | succ fuel ih =>
    obtain ⟨ihValue, ihFields, ihItems⟩ := ih
    refine ⟨fun depth cs h => ?_, fun depth cs h => ?_, fun depth cs h => ?_⟩
    · -- a value
      unfold receiptValue
      cases cs with
      | nil => exact scans_refused (by decide) rfl
      | cons c rest =>
        have hskip := skipSpace_suffix rest
        have hlen := skipSpace_length rest
        have hlength : (c :: rest).length = rest.length + 1 := rfl
        rw [hlength] at h
        simp only
        by_cases hquote : c = 34
        · rw [if_pos hquote]
          split
          · exact scans_refused (by decide) rfl
          · next s rest' hs =>
            have hlt := scanString_length hs
            apply scans_ok ((scanString_suffix hs).trans (List.suffix_cons _ _))
            · rw [hlength]
              omega
            · intro k _
              simp [Json.fits]
        rw [if_neg hquote]
        by_cases hbrace : c = 123
        · rw [if_pos hbrace]
          split
          · next hzero =>
            apply scans_error (by decide)
            intro hm
            exact absurd hzero (hm.behind (.inr hbrace)).1
          · next hdepth =>
            split
            · next rest' hclose =>
              rw [hclose] at hskip hlen
              apply scans_ok ((List.suffix_cons _ _).trans (hskip.trans (List.suffix_cons _ _)))
              · rw [List.length_cons] at hlen
                rw [hlength]
                omega
              · intro k hk
                rw [openings_cons (.inr hbrace)] at hk
                simp [Json.fits, Json.fitsFields]
                omega
            · apply (ihFields (depth - 1) (skipSpace rest) (by omega)).bind
              · intro hm
                exact (hm.behind (.inr hbrace)).2.suffix hskip
              · intro pairs rest' hsuffix hlt hnests
                apply scans_between
                · intro heq
                  unfold rejectDuplicateKeys at heq
                  split at heq
                  · cases heq
                  · cases heq
                · intro _ fault heq
                  unfold rejectDuplicateKeys at heq
                  split at heq
                  · cases heq
                    rfl
                  · cases heq
                · intro v hv
                  apply scans_ok (hsuffix.trans (hskip.trans (List.suffix_cons _ _)))
                  · rw [hlength]
                    omega
                  · intro k hk
                    rw [openings_cons (.inr hbrace)] at hk
                    have hopen := openings_suffix hskip
                    unfold rejectDuplicateKeys at hv
                    split at hv
                    · cases hv
                    · cases hv
                      have hfields := hnests (k - 1) (by omega)
                      simp only [Json.fits, hfields, Bool.and_true]
                      exact decide_eq_true (by omega)
        rw [if_neg hbrace]
        by_cases hbracket : c = 91
        · rw [if_pos hbracket]
          split
          · next hzero =>
            apply scans_error (by decide)
            intro hm
            exact absurd hzero (hm.behind (.inl hbracket)).1
          · next hdepth =>
            split
            · next rest' hclose =>
              rw [hclose] at hskip hlen
              apply scans_ok ((List.suffix_cons _ _).trans (hskip.trans (List.suffix_cons _ _)))
              · rw [List.length_cons] at hlen
                rw [hlength]
                omega
              · intro k hk
                rw [openings_cons (.inl hbracket)] at hk
                simp [Json.fits, Json.fitsItems]
                omega
            · apply (ihItems (depth - 1) (skipSpace rest) (by omega)).bind
              · intro hm
                exact (hm.behind (.inl hbracket)).2.suffix hskip
              · intro items rest' hsuffix hlt hnests
                apply scans_ok (hsuffix.trans (hskip.trans (List.suffix_cons _ _)))
                · rw [hlength]
                  omega
                · intro k hk
                  rw [openings_cons (.inl hbracket)] at hk
                  have hopen := openings_suffix hskip
                  have hitems := hnests (k - 1) (by omega)
                  simp only [Json.fits, hitems, Bool.and_true]
                  exact decide_eq_true (by omega)
        rw [if_neg hbracket]
        exact receiptAtom_scans rt depth (c :: rest)
    · -- the pairs of an object
      unfold receiptFields
      split
      · next rest =>
        simp only [List.length_cons] at h
        split
        · exact scans_refused (by decide) rfl
        · next key rest₁ hs =>
          have hlt := scanString_length hs
          have hsuffix₁ := (scanString_suffix hs).trans (List.suffix_cons 34 rest)
          have hskip := skipSpace_length rest₁
          split
          · next rest₂ hcolon =>
            have hsuffix₂ : rest₂ <:+ 34 :: rest := by
              have hskip₁ := skipSpace_suffix rest₁
              rw [hcolon] at hskip₁
              exact (List.suffix_cons _ _).trans (hskip₁.trans hsuffix₁)
            rw [hcolon, List.length_cons] at hskip
            have hskip₂ := skipSpace_length rest₂
            have hvalue := (skipSpace_suffix rest₂).trans hsuffix₂
            apply (ihValue depth (skipSpace rest₂) (by omega)).bind (fun hm => hm.suffix hvalue)
            intro v rest₃ hsuffix₃ hlt₃ hv
            have hskip₃ := skipSpace_length rest₃
            have hskip₃' := skipSpace_suffix rest₃
            simp only
            split
            · next rest₄ hclose =>
              rw [hclose] at hskip₃ hskip₃'
              apply scans_ok ((List.suffix_cons _ _).trans (hskip₃'.trans (hsuffix₃.trans hvalue)))
              · simp only [List.length_cons] at hskip₃ ⊢
                omega
              · intro k hk
                rw [Json.fitsFields, Json.fitsFields, Bool.and_true]
                exact hv k (Nat.le_trans (openings_suffix hvalue) hk)
            · next rest₄ hcomma =>
              rw [hcomma] at hskip₃ hskip₃'
              have hfields := (skipSpace_suffix rest₄).trans ((List.suffix_cons _ _).trans
                (hskip₃'.trans (hsuffix₃.trans hvalue)))
              have hskip₄ := skipSpace_length rest₄
              rw [List.length_cons] at hskip₃
              apply (ihFields depth (skipSpace rest₄) (by omega)).bind
                (fun hm => hm.suffix hfields)
              intro pairs rest₅ hsuffix₅ hlt₅ hpairs
              apply scans_ok (hsuffix₅.trans hfields)
              · rw [List.length_cons]
                omega
              · intro k hk
                rw [Json.fitsFields, hv k (Nat.le_trans (openings_suffix hvalue) hk),
                  hpairs k (Nat.le_trans (openings_suffix hfields) hk), Bool.and_self]
            · exact scans_refused (by decide) rfl
          · exact scans_refused (by decide) rfl
      · exact scans_refused (by decide) rfl
    · -- the items of an array
      unfold receiptItems
      apply (ihValue depth cs (by omega)).bind id
      intro v rest hsuffix hlt hv
      have hskip := skipSpace_length rest
      have hskip' := skipSpace_suffix rest
      simp only
      split
      · next rest₁ hclose =>
        rw [hclose] at hskip hskip'
        apply scans_ok ((List.suffix_cons _ _).trans (hskip'.trans hsuffix))
        · rw [List.length_cons] at hskip
          omega
        · intro k hk
          rw [Json.fitsItems, Json.fitsItems, Bool.and_true]
          exact hv k hk
      · next rest₁ hcomma =>
        rw [hcomma] at hskip hskip'
        have hitems := (skipSpace_suffix rest₁).trans ((List.suffix_cons _ _).trans
          (hskip'.trans hsuffix))
        have hskip₁ := skipSpace_length rest₁
        rw [List.length_cons] at hskip
        apply (ihItems depth (skipSpace rest₁) (by omega)).bind (fun hm => hm.suffix hitems)
        intro items rest₂ hsuffix₂ hlt₂ hall
        apply scans_ok (hsuffix₂.trans hitems)
        · omega
        · intro k hk
          rw [Json.fitsItems, hv k hk, hall k (Nat.le_trans (openings_suffix hitems) hk),
            Bool.and_self]
      · exact scans_refused (by decide) rfl

end Atoms

/-! ## §4. Documents that cannot be loaded. -/

section Documents

variable (rt : Interpreter)

theorem Modest.mono {depth depth' : Nat} {cs : PyStr} (h : Modest depth cs)
    (hle : depth ≤ depth') : Modest depth' cs where
  openings := Nat.le_trans h.openings hle
  digits := h.digits

/-- The scan of a whole text. -/
theorem loadText_scans (text : PyStr) : Scans (fun k v => Json.fits k v) rt.scanDepth
    (skipSpace text) (receiptValue rt (2 * (skipSpace text).length + 1) rt.scanDepth
      (skipSpace text)) :=
  (receipt_scans rt _).1 _ _ (Nat.le_refl _)

theorem loadText_ok {text : PyStr} {v : Json} (h : loadText rt text = .ok v) {k : Nat}
    (hk : openings text ≤ k) : v.fits k = true := by
  unfold loadText at h
  simp only at h
  cases hv : receiptValue rt (2 * (skipSpace text).length + 1) rt.scanDepth (skipSpace text) with
  | error fault =>
    rw [hv] at h
    cases h
  | ok p =>
    obtain ⟨v', rest⟩ := p
    rw [hv] at h
    change (if _ then _ else _) = _ at h
    split at h
    · cases h
      exact (loadText_scans rt text).nests _ _ hv k
        (Nat.le_trans (openings_suffix (skipSpace_suffix text)) hk)
    · cases h

theorem loadText_fault {text : PyStr} {fault : LoadFault} (h : loadText rt text = .error fault) :
    fault ≠ .fuel ∧ (Modest rt.scanDepth text → fault.escapes = false) := by
  have hscan := loadText_scans rt text
  unfold loadText at h
  simp only at h
  cases hv : receiptValue rt (2 * (skipSpace text).length + 1) rt.scanDepth (skipSpace text) with
  | error fault' =>
    rw [hv] at h
    cases h
    constructor
    · intro heq
      rw [heq] at hv
      exact hscan.fuel hv
    · intro hm
      exact hscan.modest (hm.suffix (skipSpace_suffix text)) fault hv
  | ok p =>
    rw [hv] at h
    change (if _ then _ else _) = _ at h
    split at h
    · cases h
    · cases h
      exact ⟨by decide, fun _ => rfl⟩

/-- **`json.loads` is total.** -/
theorem loadReceipt_terminates (raw : List UInt8) : loadReceipt rt raw ≠ .error .fuel := by
  intro h
  unfold loadReceipt at h
  split at h
  · cases h
  · exact (loadText_fault rt h).1 rfl

/-- `json.loads`, or `json.dumps` of the object that it read, raises what is not caught. -/
def Unloadable (dumpDepth : Nat) (raw : List UInt8) : Prop :=
  (∃ fault, loadReceipt rt raw = .error fault ∧ fault.escapes = true) ∨
    ∃ fields, loadReceipt rt raw = .ok (.dict fields) ∧
      (Json.dict fields).fits dumpDepth = false

/-- **A modest text can be loaded.** -/
theorem modest_loadable {dumpDepth : Nat} {raw : List UInt8}
    (h : ∀ text, decodeText raw = some text → Modest (min rt.scanDepth dumpDepth) text) :
    ¬ Unloadable rt dumpDepth raw := by
  intro hun
  cases htext : decodeText raw with
  | none =>
    have hload : loadReceipt rt raw = .error .undecodable := by
      unfold loadReceipt
      rw [htext]
    rcases hun with ⟨fault, hfault, hesc⟩ | ⟨fields, hok, _⟩
    · rw [hload] at hfault
      cases hfault
      cases hesc
    · rw [hload] at hok
      cases hok
  | some text =>
    have hload : loadReceipt rt raw = loadText rt text := by
      unfold loadReceipt
      rw [htext]
    have hm := h text htext
    rcases hun with ⟨fault, hfault, hesc⟩ | ⟨fields, hok, hdeep⟩
    · rw [hload] at hfault
      rw [(loadText_fault rt hfault).2 (hm.mono (Nat.min_le_left _ _))] at hesc
      cases hesc
    · rw [hload] at hok
      rw [loadText_ok rt hok (hm.mono (Nat.min_le_right _ _)).openings] at hdeep
      cases hdeep

/-- One ASCII character, again and again. -/
theorem decodeText_replicate {b : UInt8} (hpos : b.toNat ≠ 0) (hascii : b.toNat < 128) (n : Nat) :
    decodeText (List.replicate n b) = some (List.replicate n b.toNat) := by
  have hdecode : ∀ n, decodeUtf8 (List.replicate n b.toNat) = some (List.replicate n b.toNat) := by
    intro n
    induction n with
    | zero => rfl
    | succ n ih =>
      rw [List.replicate_succ]
      unfold decodeUtf8
      rw [if_pos hascii, ih]
      rfl
  have hdetect : ∀ n, detectEncoding (List.replicate n b.toNat) = .utf8 := by
    intro n
    have hmark : ∀ (x : Nat) (mark : List Nat), x = 0 ∨ 128 ≤ x → ∀ m,
        (x :: mark).isPrefixOf (List.replicate (m + 1) b.toNat) = false := by
      intro x mark hx m
      have hne : (x == b.toNat) = false := by
        rw [beq_eq_false_iff_ne]
        omega
      rw [List.replicate_succ, List.isPrefixOf_cons_cons, hne, Bool.false_and]
    cases n with
    | zero => rfl
    | succ n =>
      unfold detectEncoding
      rw [hmark _ _ (.inl rfl), hmark _ _ (.inr (by decide)), hmark _ _ (.inr (by decide)),
        hmark _ _ (.inr (by decide)), hmark _ _ (.inr (by decide))]
      cases n with
      | zero => rfl
      | succ n =>
        cases n with
        | zero =>
          simp only [List.replicate_succ, List.replicate_zero, hpos]
          rfl
        | succ n =>
          cases n with
          | zero => rfl
          | succ n =>
            simp only [List.replicate_succ, hpos]
            rfl
  unfold decodeText
  simp only [List.map_replicate]
  rw [hdetect]
  exact hdecode n

/-- A character that is no whitespace. -/
theorem skipSpace_replicate {c : Nat} (hc : isJsonSpace c = false) (n : Nat) :
    skipSpace (List.replicate n c) = List.replicate n c := by
  cases n with
  | zero => rfl
  | succ n =>
    unfold skipSpace
    rw [List.replicate_succ, List.dropWhile_cons, hc]
    rfl

/-- A fault of the first value is one of the document. -/
theorem loadReceipt_fault {raw : List UInt8} {text : PyStr} {fault : LoadFault}
    (htext : decodeText raw = some text) (hskip : skipSpace text = text)
    (hv : receiptValue rt (2 * text.length + 1) rt.scanDepth text = .error fault) :
    loadReceipt rt raw = .error fault := by
  unfold loadReceipt
  rw [htext]
  unfold loadText
  simp only
  rw [hskip, hv]
  rfl

/-- Too many digits. -/
theorem unloadable_digits {n : Nat} (hn : 4300 < n) (dumpDepth : Nat) :
    Unloadable rt dumpDepth (List.replicate n 49) := by
  obtain ⟨m, rfl⟩ : ∃ m, n = m + 1 := ⟨n - 1, by omega⟩
  have htake : (List.replicate m 49).takeWhile isDigit = List.replicate m 49 := by
    rw [List.takeWhile_replicate]
    rfl
  have hdrop : (List.replicate m 49).dropWhile isDigit = [] := by
    rw [List.dropWhile_replicate]
    rfl
  have hatom : receiptAtom rt (List.replicate (m + 1) 49) = .error .digits := by
    have hwhole : scanWhole (List.replicate (m + 1) 49)
        = some (false, List.replicate (m + 1) 49, []) := by
      rw [List.replicate_succ]
      unfold scanWhole
      simp only
      rw [if_neg (by decide), if_pos (by decide), htake, hdrop]
    have hnumber : receiptNumber rt false (List.replicate (m + 1) 49) [] = .error .digits := by
      unfold receiptNumber
      rw [if_pos List.isEmpty_nil, if_pos (by rw [List.length_replicate]; exact hn)]
    unfold receiptAtom
    rw [hwhole]
    simp only [scanFraction, scanExponent, List.append_nil]
    rw [hnumber]
    rfl
  refine .inl ⟨.digits, ?_, rfl⟩
  apply loadReceipt_fault rt (decodeText_replicate (by decide) (by decide) (m + 1))
    (skipSpace_replicate rfl _)
  unfold receiptValue
  rw [show (49 : UInt8).toNat = 49 from rfl]
  rw [List.replicate_succ] at hatom ⊢
  simp only
  rw [if_neg (by decide), if_neg (by decide), if_neg (by decide), hatom]

theorem receiptValue_deep {depth n fuel : Nat} (hn : depth < n) (hfuel : 2 * n + 1 ≤ fuel) :
    receiptValue rt fuel depth (List.replicate n 91) = .error .recursion := by
  induction depth generalizing n fuel with
  | zero =>
    obtain ⟨m, rfl⟩ : ∃ m, n = m + 1 := ⟨n - 1, by omega⟩
    obtain ⟨f, rfl⟩ : ∃ f, fuel = f + 1 := ⟨fuel - 1, by omega⟩
    rw [List.replicate_succ]
    unfold receiptValue
    rfl
  | succ depth ih =>
    obtain ⟨m, rfl⟩ : ∃ m, n = m + 2 := ⟨n - 2, by omega⟩
    obtain ⟨f, rfl⟩ : ∃ f, fuel = f + 2 := ⟨fuel - 2, by omega⟩
    have hrest := @ih (m + 1) f (by omega) (by omega)
    rw [List.replicate_succ]
    unfold receiptValue
    simp only
    rw [if_neg (by decide), if_neg (by decide), if_pos trivial, if_neg (by omega),
      skipSpace_replicate rfl, List.replicate_succ]
    simp only
    unfold receiptItems
    rw [← List.replicate_succ, Nat.add_sub_cancel, hrest]
    rfl

/-- Too many brackets. -/
theorem unloadable_deep {n : Nat} (hn : rt.scanDepth < n) (dumpDepth : Nat) :
    Unloadable rt dumpDepth (List.replicate n 91) := by
  refine .inl ⟨.recursion, ?_, rfl⟩
  apply loadReceipt_fault rt (decodeText_replicate (by decide) (by decide) n)
    (skipSpace_replicate rfl _)
  exact receiptValue_deep rt hn (by rw [List.length_replicate])

/-! ## §5. The observation returns. -/

theorem parseStored_escapes_iff (dumpDepth : Nat) (raw : List UInt8) :
    (∃ fault, parseStored rt dumpDepth raw = .error (.escaped fault)) ↔
      Unloadable rt dumpDepth raw := by
  unfold parseStored Unloadable
  cases hload : loadReceipt rt raw with
  | error fault =>
    by_cases hesc : fault.escapes = true
    · simp only [hesc, if_true]
      exact iff_of_true ⟨fault, rfl⟩ (.inl ⟨fault, rfl, hesc⟩)
    · simp only [hesc]
      apply iff_of_false
      · intro h
        obtain ⟨_, h⟩ := h
        cases h
      · intro h
        rcases h with ⟨fault', heq, hesc'⟩ | ⟨_, heq, _⟩
        · cases heq
          exact hesc hesc'
        · cases heq
  | ok v =>
    cases v with
    | dict fields =>
      by_cases hfits : (Json.dict fields).fits dumpDepth = true
      · simp only [hfits, Bool.not_true, Bool.false_eq_true, if_false]
        apply iff_of_false
        · intro h
          obtain ⟨_, h⟩ := h
          split at h
          · cases h
          · cases h
        · intro h
          rcases h with ⟨_, heq, _⟩ | ⟨fields', heq, hdeep⟩
          · cases heq
          · cases heq
            rw [hfits] at hdeep
            cases hdeep
      · have hdeep := Bool.eq_false_iff.mpr hfits
        simp only [hdeep, Bool.not_false, if_true]
        exact iff_of_true ⟨.recursion, rfl⟩ (.inr ⟨fields, rfl, hdeep⟩)
    | _ =>
      apply iff_of_false
      · intro h
        obtain ⟨_, h⟩ := h
        cases h
      · intro h
        rcases h with ⟨_, heq, _⟩ | ⟨_, heq, _⟩
        · cases heq
        · cases heq

/-- Only the bytes of a receipt of an accepted size are loaded. -/
theorem measureStored_escapes_iff (dumpDepth : Nat) (root : Directory)
    (expectedSourceRevision : Option PyStr) (required : Bool) (raw : List UInt8) :
    (∃ fault, measureStored rt dumpDepth root expectedSourceRevision required raw
      = .error (.escaped fault)) ↔
      raw ≠ [] ∧ raw.length ≤ maxReceiptBytes ∧ Unloadable rt dumpDepth raw := by
  have hsize : (raw.isEmpty || decide (maxReceiptBytes < raw.length)) = false ↔
      raw ≠ [] ∧ raw.length ≤ maxReceiptBytes := by
    rw [Bool.or_eq_false_iff, decide_eq_false_iff_not, Nat.not_lt]
    cases raw with
    | nil => simp
    | cons b bytes => simp
  rw [← and_assoc, ← hsize, ← parseStored_escapes_iff]
  unfold measureStored
  by_cases hs : (raw.isEmpty || decide (maxReceiptBytes < raw.length)) = true
  · rw [if_pos hs]
    apply iff_of_false
    · intro h
      obtain ⟨_, h⟩ := h
      cases h
    · intro h
      rw [hs] at h
      cases h.1
  · rw [if_neg hs]
    have hs' := Bool.eq_false_iff.mpr hs
    constructor
    · intro h
      obtain ⟨fault, h⟩ := h
      refine ⟨hs', fault, ?_⟩
      split at h
      · next e he =>
        cases h
        exact he
      · split at h
        · cases h
        · cases h
    · intro h
      obtain ⟨_, fault, hfault⟩ := h
      rw [hfault]
      exact ⟨fault, rfl⟩

/-- A stored receipt that makes the observation raise. -/
def Escapes (dumpDepth : Nat) (stored : Option Node) : Prop :=
  ∃ content, stored = some (.file content) ∧ content.bytes ≠ [] ∧
    content.bytes.length ≤ maxReceiptBytes ∧ Unloadable rt dumpDepth content.bytes

/-- What is no regular file is answered without a look into it. -/
theorem observeStored_other {stored : Option Node} (dumpDepth : Nat) (root : Directory)
    (expectedSourceRevision : Option PyStr) (required : Bool)
    (h : ∀ content, stored ≠ some (.file content)) :
    ∃ observation, observeStored rt dumpDepth root expectedSourceRevision required stored
      = .ok observation := by
  unfold observeStored
  cases stored with
  | none => exact ⟨_, rfl⟩
  | some node =>
    cases node with
    | file content => exact absurd rfl (h content)
    | directory entries => exact ⟨_, rfl⟩
    | special => exact ⟨_, rfl⟩
    | symlink target =>
      simp only
      by_cases hexists : (Node.symlink target).pathExists = true
      · rw [if_neg (by simp [hexists]), if_pos (by rfl)]
        exact ⟨_, rfl⟩
      · rw [if_pos (by simp [hexists])]
        exact ⟨_, rfl⟩

theorem observeStored_file (dumpDepth : Nat) (root : Directory)
    (expectedSourceRevision : Option PyStr) (required : Bool) (content : FileContent) :
    (∃ observation, observeStored rt dumpDepth root expectedSourceRevision required
      (some (.file content)) = .ok observation) ↔
      ¬ ∃ fault, measureStored rt dumpDepth root expectedSourceRevision required content.bytes
        = .error (.escaped fault) := by
  have hobserve : observeStored rt dumpDepth root expectedSourceRevision required
      (some (.file content)) = match measureStored rt dumpDepth root expectedSourceRevision required
        content.bytes with
      | .ok observation => .ok observation
      | .error (.caught _) =>
          .ok (BuildReceiptObservation.unread .invalid required (py "BUILD_RECEIPT_INVALID"))
      | .error (.escaped fault) => .error fault := rfl
  rw [hobserve]
  cases measureStored rt dumpDepth root expectedSourceRevision required content.bytes with
  | ok observation =>
    apply iff_of_true ⟨_, rfl⟩
    intro h
    obtain ⟨_, h⟩ := h
    cases h
  | error e =>
    cases e with
    | caught e =>
      apply iff_of_true ⟨_, rfl⟩
      intro h
      obtain ⟨_, h⟩ := h
      cases h
    | escaped fault =>
      apply iff_of_false
      · intro h
        obtain ⟨_, h⟩ := h
        cases h
      · intro h
        exact h ⟨fault, rfl⟩

/-- **When the observation returns.** -/
theorem observeStored_returns_iff (dumpDepth : Nat) (root : Directory)
    (expectedSourceRevision : Option PyStr) (required : Bool) (stored : Option Node) :
    (∃ observation, observeStored rt dumpDepth root expectedSourceRevision required stored
      = .ok observation) ↔ ¬ Escapes rt dumpDepth stored := by
  by_cases hfile : ∃ content, stored = some (.file content)
  · obtain ⟨content, rfl⟩ := hfile
    rw [observeStored_file, measureStored_escapes_iff]
    apply not_congr
    constructor
    · intro h
      exact ⟨content, rfl, h⟩
    · intro h
      obtain ⟨content', heq, h⟩ := h
      cases heq
      exact h
  · apply iff_of_true
    · apply observeStored_other
      intro content heq
      exact hfile ⟨content, heq⟩
    · intro h
      obtain ⟨content, heq, _⟩ := h
      exact hfile ⟨content, heq⟩

end Documents

/-- **Build-receipt observation fails closed**, unless the JSON library runs out of depth, or meets
an integer with too many digits. -/
theorem observe_receipt_closed (rt : Interpreter) (dumpDepth : Nat) :
    (∀ (root : Directory) (expectedSourceRevision : Option PyStr) (required : Bool)
        (stored : Option Node),
      (∃ observation, observeStored rt dumpDepth root expectedSourceRevision required stored
        = .ok observation) ↔ ¬ Escapes rt dumpDepth stored) ∧
    (∀ raw, (∀ text, decodeText raw = some text → Modest (min rt.scanDepth dumpDepth) text) →
      ¬ Unloadable rt dumpDepth raw) ∧
    (∀ n, 4300 < n → Unloadable rt dumpDepth (List.replicate n 49)) ∧
    ∀ n, rt.scanDepth < n → Unloadable rt dumpDepth (List.replicate n 91) := by
  refine ⟨?_, fun _ => modest_loadable rt, fun _ hn => unloadable_digits rt hn dumpDepth,
    fun _ hn => unloadable_deep rt hn dumpDepth⟩
  intro root expectedSourceRevision required stored
  exact observeStored_returns_iff rt dumpDepth root expectedSourceRevision required stored

/-- A receipt of 4301 digits. -/
def digitsReceipt : FileContent where
  bytes := List.replicate 4301 49
  size_lt := by
    rw [List.length_replicate]
    decide

/-- Its observation raises the ValueError of `int`. -/
theorem observe_receipt_raises :
    ¬ ∃ observation, observeStored integerRuntime 1000 [] none false (some (.file digitsReceipt))
      = .ok observation := by
  intro h
  apply (observeStored_returns_iff integerRuntime 1000 [] none false _).mp h
  refine ⟨digitsReceipt, rfl, ?_, ?_, unloadable_digits integerRuntime (by decide) 1000⟩
  · intro hnil
    cases hnil
  · show (List.replicate 4301 (49 : UInt8)).length ≤ maxReceiptBytes
    rw [List.length_replicate]
    decide

end Lyte
