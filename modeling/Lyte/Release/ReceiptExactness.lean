import Lyte.Connectors.StrictJson
import Lyte.Domain.Dicts
import Lyte.Domain.Receipts
import Lyte.Lib.Program
import Lyte.Release.BuildReceipt

/-
  Lyte.Release.ReceiptExactness — which bytes are a verified build receipt.

  A tree and a revision have at most one verified receipt: the canonical text of
  `receiptDocument` over the entries of the tree, and a line end.

      validateDocument_text     what passes `_validate_document` has the text of
                                a receipt over the entries it returns (§2);
      validateDocument_receipt  the receipt over collected entries passes it (§3);
      observe_verified_iff      so VERIFIED means: these bytes (§4).

  The revision marker of the tree is no part of this: `build_receipt_document`
  compares it with the revision, `observe_build_receipt` does not.
-/

namespace Lyte

open Transact

/-! ## §1. Objects with given keys. -/

section Dicts

variable {fs gs : List (PyStr × Json)}

theorem nodup_of_nodupKeys (h : (Json.dict fs).nodupKeys = true) : (fs.map Prod.fst).Nodup := by
  rw [Json.nodupKeys, Bool.and_eq_true, decide_eq_true_eq] at h
  exact h.1

theorem nodupKeys_get (h : (Json.dict fs).nodupKeys = true) (k : PyStr) :
    (Json.get fs k).nodupKeys = true := by
  rw [Json.nodupKeys, nodupKeysFields_eq, Bool.and_eq_true, List.all_eq_true] at h
  unfold Json.get
  cases hv : Json.lookup fs k with
  | none => rfl
  | some v => exact h.2 _ (mem_of_lookup hv)

theorem nodupKeys_item {xs : List Json} (h : (Json.list xs).nodupKeys = true) :
    ∀ x ∈ xs, x.nodupKeys = true := by
  rw [Json.nodupKeys, nodupKeysItems_eq, List.all_eq_true] at h
  exact h

/-- An object with exactly the keys of `gs`, and the same text under each of them. -/
theorem renderWith_of_exactly (rt : Runtime) (quoted : PyStr → PyStr)
    (hf : (fs.map Prod.fst).Nodup) (hg : (gs.map Prod.fst).Nodup) {keys : List PyStr}
    (hkeys : keys = gs.map Prod.fst) (h : hasExactly fs keys = true)
    (htext : ∀ g ∈ gs, (Json.get fs g.1).renderWith rt quoted = g.2.renderWith rt quoted) :
    (Json.dict fs).renderWith rt quoted = (Json.dict gs).renderWith rt quoted := by
  subst hkeys
  unfold hasExactly at h
  rw [Bool.and_eq_true, List.all_eq_true, List.all_eq_true] at h
  refine renderWith_dict_congr rt quoted hf hg ?_ ?_
  · exact fun f hmem => List.contains_iff_mem.mp (h.1 f hmem)
  · intro g hmem
    have hsome := h.2 g.1 (List.mem_map.mpr ⟨g, hmem, rfl⟩)
    obtain ⟨v, hv⟩ := Option.isSome_iff_exists.mp hsome
    refine ⟨v, mem_of_lookup hv, ?_⟩
    rw [← htext g hmem]
    unfold Json.get
    rw [hv]
    rfl

/-- Sorting the fields keeps what is looked up. -/
theorem get_canonical (fs : List (PyStr × Json)) (hn : (fs.map Prod.fst).Nodup) {k : PyStr} {v : Json} (h : (k, v) ∈ fs) :
    Json.get (sortByKey (Json.canonicalFields fs)) k = v.canonical := by
  have hkeys : (Json.canonicalFields fs).map Prod.fst = fs.map Prod.fst := by
    rw [canonicalFields_eq, List.map_map]
    rfl
  have hsorted : ((sortByKey (Json.canonicalFields fs)).map Prod.fst).Nodup := by
    rw [((sortByKey_perm _).map Prod.fst).nodup_iff, hkeys]
    exact hn
  have hmem : (k, v.canonical) ∈ sortByKey (Json.canonicalFields fs) := by
    rw [(sortByKey_perm _).mem_iff, canonicalFields_eq]
    exact List.mem_map.mpr ⟨(k, v), h, rfl⟩
  unfold Json.get Json.lookup
  rw [Json.lookup_of_mem hsorted hmem]
  rfl

theorem hasExactly_canonical (fs : List (PyStr × Json)) {keys : List PyStr} (hkeys : keys = fs.map Prod.fst) :
    hasExactly (sortByKey (Json.canonicalFields fs)) keys = true := by
  subst hkeys
  have hmem : ∀ k, k ∈ fs.map Prod.fst ↔
      ∃ v, (k, v) ∈ sortByKey (Json.canonicalFields fs) := by
    intro k
    simp only [(sortByKey_perm _).mem_iff, canonicalFields_eq, List.mem_map]
    constructor
    · rintro ⟨f, hf, rfl⟩
      exact ⟨_, f, hf, rfl⟩
    · rintro ⟨v, f, hf, heq⟩
      cases heq
      exact ⟨f, hf, rfl⟩
  unfold hasExactly
  rw [Bool.and_eq_true, List.all_eq_true, List.all_eq_true]
  constructor
  · intro f hf
    exact List.contains_iff_mem.mpr ((hmem f.1).mpr ⟨f.2, hf⟩)
  · intro k hk
    obtain ⟨v, hv⟩ := (hmem k).mp hk
    unfold Json.lookup
    exact List.lookup_isSome_iff.mpr ⟨(k, v), hv, beq_self_eq_true k⟩

end Dicts

/-! ## §2. What passes validation. -/

theorem nodup_entryKeys : [py "path", py "size", py "sha256"].Nodup := by decide
theorem nodup_sourceKeys : [py "repository", py "revision"].Nodup := by decide
theorem nodup_payloadKeys : [py "scope", py "algorithm", py "files", py "sha256"].Nodup := by decide
theorem nodup_documentKeys : [py "schema", py "service", py "source", py "payload"].Nodup := by
  decide

section Validated

variable (rt : Runtime) (quoted : PyStr → PyStr)

theorem validateEntry_text {entry : Json} {e : PayloadEntry} (hn : entry.nodupKeys = true)
    (h : validateEntry entry = .ok e) :
    entry.renderWith rt quoted = e.json.renderWith rt quoted := by
  unfold validateEntry at h
  split at h
  case h_2 => cases h
  next fields =>
  split at h
  · cases h
  next hkeys =>
  split at h
  case h_2 => cases h
  next path hpath =>
  obtain ⟨_, _, h⟩ := ok_of_bind h
  split at h
  case h_2 => cases h
  next size hsize =>
  split at h
  · cases h
  next hpos =>
  split at h
  case h_2 => cases h
  next digest hdigest =>
  split at h
  · cases h
  cases h
  rw [Bool.not_eq_true', Bool.not_eq_false] at hkeys
  refine renderWith_of_exactly rt quoted (nodup_of_nodupKeys hn) nodup_entryKeys rfl hkeys ?_
  intro g hg
  simp only [List.mem_cons, List.not_mem_nil, or_false] at hg
  rcases hg with rfl | rfl | rfl
  · rw [hpath]
  · rw [hsize, Int.toNat_of_nonneg (Int.not_lt.mp hpos)]
  · rw [hdigest]

theorem validateSource_text {source : Json} {revision : PyStr} (hn : source.nodupKeys = true)
    (h : validateSource source = .ok revision) :
    isSha40 revision = true ∧ source.renderWith rt quoted = (Json.dict [
      (py "repository", .str sourceRepository),
      (py "revision", .str revision)]).renderWith rt quoted := by
  unfold validateSource at h
  split at h
  case h_2 => cases h
  next fields =>
  split at h
  · cases h
  next hkeys =>
  split at h
  · cases h
  next hrepository =>
  split at h
  case h_2 => cases h
  next found hfound =>
  split at h
  · cases h
  next hsha =>
  cases h
  rw [Bool.not_eq_true', Bool.not_eq_false] at hkeys hrepository hsha
  refine ⟨hsha, ?_⟩
  refine renderWith_of_exactly rt quoted (nodup_of_nodupKeys hn) nodup_sourceKeys rfl hkeys ?_
  intro g hg
  simp only [List.mem_cons, List.not_mem_nil, or_false] at hg
  rcases hg with rfl | rfl
  · rw [eq_str_of_pyEq hrepository]
  · rw [hfound]

theorem validatePayload_text {payload : Json} {digest : PyStr} {entries : List PayloadEntry}
    (hn : payload.nodupKeys = true) (h : validatePayload payload = .ok (digest, entries)) :
    payload.renderWith rt quoted = (Json.dict [
      (py "scope", .str payloadScope),
      (py "algorithm", .str payloadAlgorithm),
      (py "files", .list (entries.map PayloadEntry.json)),
      (py "sha256", .str digest)]).renderWith rt quoted := by
  unfold validatePayload at h
  split at h
  case h_2 => cases h
  next fields =>
  split at h
  · cases h
  next hkeys =>
  split at h
  · cases h
  next hconstants =>
  split at h
  case h_2 => cases h
  next found hfound =>
  split at h
  · cases h
  split at h
  case h_2 => cases h
  next file files hfiles =>
  obtain ⟨validated, hvalidated, h⟩ := ok_of_bind h
  obtain ⟨_, h⟩ := ok_of_guard h
  cases h
  rw [Bool.not_eq_true', Bool.not_eq_false] at hkeys
  rw [Bool.or_eq_true, Bool.not_eq_true', Bool.not_eq_true', not_or, Bool.not_eq_false,
    Bool.not_eq_false] at hconstants
  refine renderWith_of_exactly rt quoted (nodup_of_nodupKeys hn) nodup_payloadKeys rfl hkeys ?_
  intro g hg
  simp only [List.mem_cons, List.not_mem_nil, or_false] at hg
  rcases hg with rfl | rfl | rfl | rfl
  · rw [eq_str_of_pyEq hconstants.1]
  · rw [eq_str_of_pyEq hconstants.2]
  · -- every file has the text of the entry made of it
    obtain ⟨hlength, hall⟩ := ok_of_mapM hvalidated
    have hitems := nodupKeys_get hn (py "files")
    rw [hfiles] at hitems ⊢
    rw [renderWith_list, renderWith_list, List.map_map]
    have hsame : (file :: files).map (Json.renderWith rt quoted)
        = entries.map (Json.renderWith rt quoted ∘ PayloadEntry.json) := by
      refine List.ext_getElem (by rw [List.length_map, List.length_map, hlength]) ?_
      intro i hi hi'
      rw [List.getElem_map, List.getElem_map]
      rw [List.length_map] at hi hi'
      have hpair : ((file :: files)[i], entries[i]) ∈ (file :: files).zip entries :=
        List.mem_iff_getElem.mpr ⟨i, by rw [List.length_zip]; omega, List.getElem_zip⟩
      exact validateEntry_text rt quoted (nodupKeys_item hitems _ (List.getElem_mem hi))
        (hall _ hpair)
    rw [hsame]
  · rw [hfound]

/-- **What passes `_validate_document`** has the text of a receipt over what the
function returns. -/
theorem validateDocument_text {document : List (PyStr × Json)} {r : ValidatedReceipt}
    (hn : (Json.dict document).nodupKeys = true) (h : validateDocument document = .ok r) :
    isSha40 r.revision = true ∧ (Json.dict document).renderWith rt quoted
      = (manifestBasis r.revision r.entries
          [(py "sha256", .str r.payloadSha256)]).renderWith rt quoted := by
  unfold validateDocument at h
  obtain ⟨hkeys, h⟩ := ok_of_guard h
  obtain ⟨hconstants, h⟩ := ok_of_guard h
  obtain ⟨revision, hsource, h⟩ := ok_of_bind h
  obtain ⟨⟨digest, entries⟩, hpayload, h⟩ := ok_of_bind h
  cases h
  rw [Bool.not_eq_true', Bool.not_eq_false] at hkeys
  rw [Bool.or_eq_true, Bool.not_eq_true', Bool.not_eq_true', not_or, Bool.not_eq_false,
    Bool.not_eq_false] at hconstants
  obtain ⟨hsha, hsourceText⟩ := validateSource_text rt quoted (nodupKeys_get hn _) hsource
  refine ⟨hsha, ?_⟩
  refine renderWith_of_exactly rt quoted (nodup_of_nodupKeys hn) nodup_documentKeys rfl hkeys ?_
  intro g hg
  simp only [List.mem_cons, List.not_mem_nil, or_false] at hg
  rcases hg with rfl | rfl | rfl | rfl
  · rw [eq_str_of_pyEq hconstants.1]
  · rw [eq_str_of_pyEq hconstants.2]
  · exact hsourceText
  · exact validatePayload_text rt quoted (nodupKeys_get hn _) hpayload

end Validated

/-! ## §3. Receipts over collected entries. -/

section Sorted

variable {α : Type} (key : α → PyStr) (items : List α)

theorem sortedBy_perm : (sortedBy key items).Perm items := by
  have hperm := (sortByKey_perm (items.map (fun a => (key a, a)))).map Prod.snd
  rw [List.map_map] at hperm
  exact hperm.trans (List.Perm.of_eq (List.map_id items))

/-- The keys of sorted items are sorted. -/
theorem sortedBy_sorted : (sortedBy key items).Pairwise (fun a b => strLe (key a) (key b) = true) := by
  unfold sortedBy
  rw [List.pairwise_map]
  refine (sortByKey_sorted (items.map (fun a => (key a, a)))).imp_of_mem ?_
  intro x y hx hy hle
  obtain ⟨a, _, rfl⟩ := List.mem_map.mp ((sortByKey_perm _).mem_iff.mp hx)
  obtain ⟨b, _, rfl⟩ := List.mem_map.mp ((sortByKey_perm _).mem_iff.mp hy)
  exact hle

theorem sortedBy_id {paths : List PyStr} (h : paths.Pairwise (fun a b => strLe a b = true)) :
    sortedBy id paths = paths := by
  have hsorted : KeySorted (paths.map (fun a => (id a, a))) := by
    unfold KeySorted
    rw [List.pairwise_map]
    exact h
  unfold sortedBy
  rw [sortByKey_of_sorted hsorted, List.map_map]
  exact List.map_id paths

end Sorted

/-- A manifest line as `collect_payload_entries` makes it. -/
structure PayloadEntry.Collected (e : PayloadEntry) : Prop where
  path : validateRelativePath e.path = .ok ()
  digest : isSha256Hex e.sha256 = true
  size_lt : e.size < 2 ^ 63

/-- The entries of a tree: there are some, and their paths are distinct and sorted. -/
structure Manifest (entries : List PayloadEntry) : Prop where
  ne_nil : entries ≠ []
  each : ∀ e ∈ entries, e.Collected
  nodup : (entries.map PayloadEntry.path).Nodup
  sorted : sortedBy id (entries.map PayloadEntry.path) = entries.map PayloadEntry.path

theorem collected (rt : Runtime) (hsha : ∀ bytes, isSha256Hex (rt.sha256 bytes) = true)
    {root : Directory} {entries : List PayloadEntry}
    (h : collectPayloadEntries rt root = .ok entries) : Manifest entries := by
  unfold collectPayloadEntries at h
  obtain ⟨below, _, h⟩ := ok_of_bind h
  obtain ⟨files, hfiles, h⟩ := ok_of_bind h
  obtain ⟨lines, hlines, h⟩ := ok_of_bind h
  obtain ⟨hnodup, h⟩ := ok_of_guard h
  cases h
  obtain ⟨hlength, hall⟩ := ok_of_mapM hlines
  have hperm := sortedBy_perm PayloadEntry.path lines
  refine ⟨?_, ?_, of_not_not hnodup, ?_⟩
  · -- the single files are always among them
    intro hnil
    have hfilesLength := (ok_of_mapM hfiles).1
    have hempty : lines.length = 0 := by rw [← hperm.length_eq, hnil]; rfl
    rw [List.length_append, ← hfilesLength, hempty] at hlength
    have hsix : payloadFiles.length = 6 := rfl
    omega
  · intro e he
    have hmem := hperm.mem_iff.mp he
    obtain ⟨i, hi, hget⟩ := List.mem_iff_getElem.mp hmem
    have hi' : i < (below.flatten ++ files).length := by rw [hlength]; exact hi
    have hpair : ((below.flatten ++ files)[i], e) ∈ (below.flatten ++ files).zip lines :=
      List.mem_iff_getElem.mpr
        ⟨i, by rw [List.length_zip]; omega, by rw [List.getElem_zip, hget]⟩
    have hentry := hall _ hpair
    unfold payloadEntry at hentry
    obtain ⟨_, hpath, hentry⟩ := ok_of_bind hentry
    simp only [pure, Except.pure, Except.ok.injEq] at hentry
    rw [← hentry]
    exact ⟨hpath, hsha _, FileContent.size_lt _⟩
  · refine sortedBy_id ?_
    rw [List.pairwise_map]
    exact sortedBy_sorted PayloadEntry.path lines

theorem validateEntry_collected {e : PayloadEntry} (h : e.Collected) :
    validateEntry e.json.canonical = .ok e := by
  let fields := [(py "path", Json.str e.path), (py "size", .int e.size), (py "sha256", .str e.sha256)]
  have hkeys : hasExactly _ [py "path", py "size", py "sha256"] = true :=
    hasExactly_canonical fields rfl
  have hpath : Json.get _ (py "path") = .str e.path :=
    get_canonical fields nodup_entryKeys List.mem_cons_self
  have hsize : Json.get _ (py "size") = .int e.size :=
    get_canonical fields nodup_entryKeys (List.mem_cons_of_mem _ List.mem_cons_self)
  have hdigest : Json.get _ (py "sha256") = .str e.sha256 :=
    get_canonical fields nodup_entryKeys
      (List.mem_cons_of_mem _ (List.mem_cons_of_mem _ List.mem_cons_self))
  have hpos : ¬ (e.size : Int) < 0 := by omega
  show validateEntry (.dict (sortByKey (Json.canonicalFields fields))) = .ok e
  unfold validateEntry
  simp only [hkeys, hpath, hsize, hdigest, h.path, h.digest, Bool.not_true, Bool.false_eq_true,
    if_false, if_neg hpos, bind, Except.bind, Int.toNat_natCast]
  rfl

theorem validateSource_receipt {revision : PyStr} (hsha : isSha40 revision = true) :
    validateSource (Json.dict [(py "repository", .str sourceRepository),
      (py "revision", .str revision)]).canonical = .ok revision := by
  let fields := [(py "repository", Json.str sourceRepository), (py "revision", .str revision)]
  have hkeys : hasExactly _ [py "repository", py "revision"] = true :=
    hasExactly_canonical fields rfl
  have hrepository : Json.get _ (py "repository") = .str sourceRepository :=
    get_canonical fields nodup_sourceKeys List.mem_cons_self
  have hrevision : Json.get _ (py "revision") = .str revision :=
    get_canonical fields nodup_sourceKeys (List.mem_cons_of_mem _ List.mem_cons_self)
  show validateSource (.dict (sortByKey (Json.canonicalFields fields))) = .ok revision
  unfold validateSource
  simp only [hkeys, hrepository, hrevision, hsha, Json.pyEq_str, beq_self_eq_true, Bool.not_true,
    Bool.false_eq_true, if_false]

theorem validatePayload_receipt {entries : List PayloadEntry} (hm : Manifest entries)
    {digest : PyStr} (hdigest : isSha256Hex digest = true) :
    validatePayload (Json.dict [
      (py "scope", .str payloadScope),
      (py "algorithm", .str payloadAlgorithm),
      (py "files", .list (entries.map PayloadEntry.json)),
      (py "sha256", .str digest)]).canonical = .ok (digest, entries) := by
  let fields := [(py "scope", Json.str payloadScope), (py "algorithm", .str payloadAlgorithm),
    (py "files", .list (entries.map PayloadEntry.json)), (py "sha256", .str digest)]
  have hkeys : hasExactly _ [py "scope", py "algorithm", py "files", py "sha256"] = true :=
    hasExactly_canonical fields rfl
  have hscope : Json.get _ (py "scope") = .str payloadScope :=
    get_canonical fields nodup_payloadKeys List.mem_cons_self
  have halgorithm : Json.get _ (py "algorithm") = .str payloadAlgorithm :=
    get_canonical fields nodup_payloadKeys (List.mem_cons_of_mem _ List.mem_cons_self)
  have hfiles : Json.get _ (py "files") = (Json.list (entries.map PayloadEntry.json)).canonical :=
    get_canonical fields nodup_payloadKeys
      (List.mem_cons_of_mem _ (List.mem_cons_of_mem _ List.mem_cons_self))
  have hsha : Json.get _ (py "sha256") = .str digest :=
    get_canonical fields nodup_payloadKeys
      (List.mem_cons_of_mem _ (List.mem_cons_of_mem _ (List.mem_cons_of_mem _
        List.mem_cons_self)))
  have hitems : (Json.list (entries.map PayloadEntry.json)).canonical
      = .list (entries.map (Json.canonical ∘ PayloadEntry.json)) := by
    rw [Json.canonical, canonicalItems_eq, List.map_map]
  have hvalidated : (entries.map (Json.canonical ∘ PayloadEntry.json)).mapM validateEntry
      = .ok entries := by
    have heach := hm.each
    clear hm hitems hfiles fields hkeys hscope halgorithm hsha
    induction entries with
    | nil => rfl
    | cons e es ih =>
      rw [List.map_cons, List.mapM_cons, ih (fun x hx => heach x (List.mem_cons_of_mem _ hx))]
      show (validateEntry e.json.canonical >>= _) = _
      rw [validateEntry_collected (heach e List.mem_cons_self)]
      rfl
  rw [hitems] at hfiles
  show validatePayload (.dict (sortByKey (Json.canonicalFields fields))) = .ok (digest, entries)
  unfold validatePayload
  obtain ⟨e, es, rfl⟩ := List.exists_cons_of_ne_nil hm.ne_nil
  rw [List.map_cons] at hfiles hvalidated
  simp only [hkeys, hscope, halgorithm, hfiles, hsha, hdigest, hvalidated, Json.pyEq_str,
    beq_self_eq_true, Bool.not_true, Bool.false_eq_true, Bool.or_self, if_false, bind, Except.bind]
  have hok : ¬ ((e :: es).map PayloadEntry.path ≠ sortedBy id ((e :: es).map PayloadEntry.path) ∨
      ¬ ((e :: es).map PayloadEntry.path).Nodup) := by
    rw [not_or, not_not, not_not]
    exact ⟨hm.sorted.symm, hm.nodup⟩
  rw [if_neg hok]
  rfl

/-- **The receipt over collected entries passes `_validate_document`**, with its
fields in the order of their keys. -/
theorem validateDocument_receipt {entries : List PayloadEntry} (hm : Manifest entries)
    {revision digest : PyStr} (hrevision : isSha40 revision = true)
    (hdigest : isSha256Hex digest = true) :
    ∃ document, (manifestBasis revision entries [(py "sha256", .str digest)]).canonical
        = .dict document ∧
      validateDocument document = .ok ⟨revision, digest, entries⟩ := by
  let fields := [(py "schema", Json.str buildReceiptSchema), (py "service", .str buildReceiptService),
    (py "source", .dict [(py "repository", .str sourceRepository), (py "revision", .str revision)]),
    (py "payload", .dict [(py "scope", .str payloadScope), (py "algorithm", .str payloadAlgorithm),
      (py "files", .list (entries.map PayloadEntry.json)), (py "sha256", .str digest)])]
  refine ⟨sortByKey (Json.canonicalFields fields), rfl, ?_⟩
  have hkeys : hasExactly _ [py "schema", py "service", py "source", py "payload"] = true :=
    hasExactly_canonical fields rfl
  have hschema : Json.get _ (py "schema") = .str buildReceiptSchema :=
    get_canonical fields nodup_documentKeys List.mem_cons_self
  have hservice : Json.get _ (py "service") = .str buildReceiptService :=
    get_canonical fields nodup_documentKeys (List.mem_cons_of_mem _ List.mem_cons_self)
  have hsource : Json.get _ (py "source") = _ :=
    get_canonical fields nodup_documentKeys
      (List.mem_cons_of_mem _ (List.mem_cons_of_mem _ List.mem_cons_self))
  have hpayload : Json.get _ (py "payload") = _ :=
    get_canonical fields nodup_documentKeys
      (List.mem_cons_of_mem _ (List.mem_cons_of_mem _ (List.mem_cons_of_mem _
        List.mem_cons_self)))
  unfold validateDocument
  simp only [hkeys, hschema, hservice, hsource, hpayload, Json.pyEq_str, beq_self_eq_true,
    Bool.not_true, Bool.false_eq_true, Bool.or_self, if_false,
    validateSource_receipt hrevision, validatePayload_receipt hm hdigest]
  rfl

/-! ## §4. The text of a receipt. -/

/-- Printable ASCII. -/
def printable (s : PyStr) : Bool := s.all (fun c => decide (32 ≤ c ∧ c < 127))

theorem escapeAscii_printable : ∀ c < 127, 32 ≤ c → escapeAscii c = escapeChar c := by decide

/-- Both ways to write a string agree on printable ASCII. -/
theorem quoteAscii_printable (s : PyStr) (h : printable s = true) : quoteAscii s = quote s := by
  have hsame : s.flatMap escapeAscii = s.flatMap escapeChar := by
    unfold printable at h
    rw [List.all_eq_true] at h
    refine List.flatMap_congr (fun c hc => ?_)
    have hc := of_decide_eq_true (h c hc)
    exact escapeAscii_printable c hc.2 hc.1
  unfold quoteAscii quote
  rw [hsame]

theorem printable_inRange (s : PyStr) (h : printable s = true) : inRange s = true := by
  unfold printable at h
  unfold inRange
  rw [List.all_eq_true] at h ⊢
  intro c hc
  have hc := of_decide_eq_true (h c hc)
  exact decide_eq_true (by omega)

theorem printable_of_hex {s : PyStr} (h : s.all isLowerHex = true) : printable s = true := by
  unfold printable
  rw [List.all_eq_true] at h ⊢
  intro c hc
  have hc := h c hc
  unfold isLowerHex at hc
  simp only [Bool.or_eq_true, Bool.and_eq_true, decide_eq_true_eq] at hc
  exact decide_eq_true (by omega)

theorem printable_of_path {path : PyStr} (h : validateRelativePath path = .ok ()) :
    printable path = true := by
  unfold validateRelativePath at h
  obtain ⟨hsafe, _⟩ := ok_of_guard h
  simp only [Bool.or_eq_true, not_or, Bool.not_eq_true', Bool.not_eq_false] at hsafe
  have hall := hsafe.1.2
  unfold printable
  rw [List.all_eq_true] at hall ⊢
  intro c hc
  have hc := hall c hc
  simp only [isSafePathChar, isAlnum, isUpper, isLower, isDigit, Bool.or_eq_true, Bool.and_eq_true,
    decide_eq_true_eq, beq_iff_eq] at hc
  exact decide_eq_true (by omega)

theorem encodable_size {n : Nat} (h : n < 2 ^ 63) : (Json.int n).encodable = true := by
  rw [Json.encodable]
  refine decide_eq_true ?_
  unfold decimal
  rw [List.length_map]
  have hdigits : (Nat.toDigits 10 n).length ≤ 19 :=
    (Nat.length_toDigits_le_iff (by decide) (by decide)).mpr (by omega)
  exact hdigits.trans (by decide)

section Text

variable {entries : List PayloadEntry} {revision digest : PyStr}

theorem PayloadEntry.Collected.printable {e : PayloadEntry} (h : e.Collected) :
    e.json.allStrings Lyte.printable = true := by
  have hhex : e.sha256.all isLowerHex = true := by
    have hd := h.digest
    unfold isSha256Hex at hd
    rw [Bool.and_eq_true] at hd
    exact hd.2
  simp only [PayloadEntry.json, Json.allStrings, Json.allStringsFields, printable_of_path h.path,
    printable_of_hex hhex, Bool.and_true]
  decide

/-- A receipt holds nothing but printable ASCII. -/
theorem Manifest.printable (hm : Manifest entries) (hrevision : isSha40 revision = true)
    (hdigest : isSha256Hex digest = true) :
    (manifestBasis revision entries [(py "sha256", .str digest)]).allStrings Lyte.printable
      = true := by
  have hhex : revision.all isLowerHex = true := by
    unfold isSha40 at hrevision
    rw [Bool.and_eq_true] at hrevision
    exact hrevision.2
  have hhex' : digest.all isLowerHex = true := by
    unfold isSha256Hex at hdigest
    rw [Bool.and_eq_true] at hdigest
    exact hdigest.2
  have hfiles : (entries.map PayloadEntry.json).all (Json.allStrings Lyte.printable) = true := by
    rw [List.all_eq_true]
    intro v hv
    obtain ⟨e, he, rfl⟩ := List.mem_map.mp hv
    exact (hm.each e he).printable
  simp only [manifestBasis, List.cons_append, List.nil_append, Json.allStrings,
    Json.allStringsFields, allStringsItems_eq, hfiles, printable_of_hex hhex,
    printable_of_hex hhex', Bool.and_true]
  decide

theorem Manifest.encodable (hm : Manifest entries) :
    (manifestBasis revision entries [(py "sha256", .str digest)]).encodable = true := by
  have hfiles : (entries.map PayloadEntry.json).all Json.encodable = true := by
    rw [List.all_eq_true]
    intro v hv
    obtain ⟨e, he, rfl⟩ := List.mem_map.mp hv
    simp only [PayloadEntry.json, Json.encodable, Json.encodableFields, Bool.true_and, Bool.and_true]
    exact encodable_size (hm.each e he).size_lt
  simp only [manifestBasis, List.cons_append, List.nil_append, Json.encodable,
    Json.encodableFields, encodableItems_eq, hfiles, Bool.and_true]

theorem nodupKeys_manifestBasis :
    (manifestBasis revision entries [(py "sha256", .str digest)]).nodupKeys = true := by
  have hfiles : (entries.map PayloadEntry.json).all Json.nodupKeys = true := by
    rw [List.all_eq_true]
    intro v hv
    obtain ⟨e, _, rfl⟩ := List.mem_map.mp hv
    simp only [PayloadEntry.json, Json.nodupKeys, Json.nodupKeysFields, Bool.and_true,
      decide_eq_true_eq]
    exact nodup_entryKeys
  simp only [manifestBasis, List.cons_append, List.nil_append, Json.nodupKeys,
    Json.nodupKeysFields, nodupKeysItems_eq, hfiles, Bool.and_true, Bool.true_and,
    Bool.and_eq_true, decide_eq_true_eq]
  exact ⟨nodup_documentKeys, nodup_sourceKeys, nodup_payloadKeys⟩

/-- A receipt nests four containers. -/
theorem fits_manifestBasis {depth : Nat} (hdepth : 4 ≤ depth) :
    (manifestBasis revision entries [(py "sha256", .str digest)]).fits depth = true := by
  have hfiles : (entries.map PayloadEntry.json).all (Json.fits (depth - 1 - 1 - 1)) = true := by
    rw [List.all_eq_true]
    intro v hv
    obtain ⟨e, _, rfl⟩ := List.mem_map.mp hv
    simp only [PayloadEntry.json, Json.fits, Json.fitsFields, Bool.and_true, decide_eq_true_eq]
    omega
  simp only [manifestBasis, List.cons_append, List.nil_append, Json.fits, Json.fitsFields,
    fitsItems_eq, hfiles, Bool.and_true, Bool.true_and, Bool.and_eq_true, decide_eq_true_eq]
  omega

end Text

/-! ## §5. Verified receipts. -/

section Observe

variable {rt : Interpreter} {root : Directory} {expected : PyStr} {required : Bool}
  {raw : List UInt8} {entries : List PayloadEntry}

theorem parseDocument_ok {document : List (PyStr × Json)} (h : parseDocument rt raw = .ok document) :
    raw = canonicalBytes rt.toRuntime (.dict document) ++ [10] ∧
      (Json.dict document).nodupKeys = true := by
  unfold parseDocument at h
  split at h
  · cases h
  · next fields hloads =>
    split at h
    · cases h
    · next hraw =>
      cases h
      obtain ⟨_, _, hnodup, _⟩ := loads_scanned rt [] hloads
      exact ⟨of_not_not hraw, hnodup⟩
  · cases h

/-- The canonical text of a printable document, with a line end, is parsed to it. -/
theorem parseDocument_canonical (hrepr : ReprRoundTrip rt) {v : Json}
    {document : List (PyStr × Json)} (hdocument : v.canonical = .dict document)
    (hencodable : v.encodable = true) (hnodup : v.nodupKeys = true)
    (hfits : v.fits rt.scanDepth = true) (hprintable : v.allStrings printable = true) :
    parseDocument rt (canonicalBytes rt.toRuntime v ++ [10]) = .ok document := by
  have htext : canonicalBytes rt.toRuntime v ++ [10]
      = (v.render rt.toRuntime ++ [10]).flatMap utf8Bytes := by
    unfold canonicalBytes
    rw [renderWith_quoted rt.toRuntime quoteAscii_printable v hprintable, render_eq_renderWith,
      List.flatMap_append]
    rfl
  have hspace : ∀ c ∈ ([10] : PyStr), isJsonSpace c = true := by decide
  have hloads : loads rt [] ((v.render rt.toRuntime ++ [10]).flatMap utf8Bytes)
      = .ok v.canonical :=
    loads_canonical_spaced hrepr hencodable hnodup hfits
      (allStrings_mono printable_inRange v hprintable) hspace
  rw [← htext, hdocument] at hloads
  have hback : canonicalBytes rt.toRuntime (.dict document) = canonicalBytes rt.toRuntime v := by
    unfold canonicalBytes
    rw [← hdocument, render_canonical]
  unfold parseDocument
  simp only [hloads, hback, ne_eq, not_true, if_false]

/-- **What is verified**: the receipt of the tree's entries. -/
theorem measureReceipt_verified {o : BuildReceiptObservation}
    (h : measureReceipt rt root (some expected) required raw = .ok o) (hv : o.state = .verified) :
    ∃ entries, collectPayloadEntries rt.toRuntime root = .ok entries ∧
      raw = canonicalBytes rt.toRuntime (receiptDocument rt.toRuntime expected entries) ++ [10] := by
  unfold measureReceipt at h
  obtain ⟨_, h⟩ := ok_of_guard h
  obtain ⟨document, hparse, h⟩ := ok_of_bind h
  obtain ⟨receipt, hvalid, h⟩ := ok_of_bind h
  obtain ⟨hraw, hnodup⟩ := parseDocument_ok hparse
  obtain ⟨_, htext⟩ := validateDocument_text rt.toRuntime quoteAscii hnodup hvalid
  simp only at h
  split at h
  · cases h
    cases hv
  next hrevision =>
  split at h
  · cases h
    cases hv
  next hdigest =>
  obtain ⟨current, hcurrent, h⟩ := ok_of_bind h
  split at h
  · cases h
    cases hv
  next hentries =>
  refine ⟨current, hcurrent, ?_⟩
  have hexpected : expected = receipt.revision := Option.some.inj (of_not_not hrevision)
  rw [hraw, of_not_not hentries, hexpected]
  unfold receiptDocument
  rw [of_not_not hdigest]
  unfold canonicalBytes
  rw [htext]

/-- The receipt of the tree's entries is verified. -/
theorem measureReceipt_receipt (hrepr : ReprRoundTrip rt) (hdepth : 4 ≤ rt.scanDepth)
    (hsha : ∀ bytes, isSha256Hex (rt.sha256 bytes) = true) (hexpected : isSha40 expected = true)
    (hentries : collectPayloadEntries rt.toRuntime root = .ok entries)
    (hraw : raw = canonicalBytes rt.toRuntime (receiptDocument rt.toRuntime expected entries)
      ++ [10])
    (hlength : raw.length ≤ maxReceiptBytes) :
    ∃ o, measureReceipt rt root (some expected) required raw = .ok o ∧ o.state = .verified := by
  have hm := collected rt.toRuntime hsha hentries
  have hdigest := hsha (canonicalBytes rt.toRuntime (manifestBasis expected entries []))
  obtain ⟨document, hdocument, hvalid⟩ := validateDocument_receipt hm hexpected hdigest
  have hparse : parseDocument rt raw = .ok document := by
    rw [hraw]
    exact parseDocument_canonical hrepr hdocument hm.encodable nodupKeys_manifestBasis
      (fits_manifestBasis hdepth) (hm.printable hexpected hdigest)
  have hbounds : (raw.isEmpty || decide (maxReceiptBytes < raw.length)) = false := by
    rw [Bool.or_eq_false_iff, decide_eq_false_iff_not]
    refine ⟨?_, by omega⟩
    rw [hraw]
    simp
  unfold measureReceipt
  simp only [hbounds, hparse, hvalid, hentries, manifestDigest, Bool.false_eq_true, if_false,
    ne_eq, not_true, bind, Except.bind, pure, Except.pure]
  exact ⟨_, rfl, rfl⟩

/-- **VERIFIED means the receipt of the tree's entries under the expected revision.** -/
theorem observe_verified_iff (root : Directory) (required : Bool) (hrepr : ReprRoundTrip rt) (hdepth : 4 ≤ rt.scanDepth)
    (hsha : ∀ bytes, isSha256Hex (rt.sha256 bytes) = true) (hexpected : isSha40 expected = true)
    (stored : FileContent) (hlength : stored.bytes.length ≤ maxReceiptBytes) :
    (observeBuildReceipt rt root (some expected) required (some (.file stored))).state = .verified ↔
      ∃ entries, collectPayloadEntries rt.toRuntime root = .ok entries ∧ stored.bytes
        = canonicalBytes rt.toRuntime (receiptDocument rt.toRuntime expected entries) ++ [10] := by
  have hobserve : ∀ {r}, measureReceipt rt root (some expected) required stored.bytes = r →
      observeBuildReceipt rt root (some expected) required (some (.file stored))
        = r.toOption.getD (.unread .invalid required (py "BUILD_RECEIPT_INVALID")) := by
    intro r hr
    have hread : (Node.file stored).readBytes >>= measureReceipt rt root (some expected) required
        = r := hr
    unfold observeBuildReceipt
    simp only [hread]
    cases r with
    | ok o => rfl
    | error e => rfl
  constructor
  · intro h
    cases hmeasure : measureReceipt rt root (some expected) required stored.bytes with
    | ok o =>
      rw [hobserve hmeasure] at h
      exact measureReceipt_verified hmeasure h
    | error e =>
      rw [hobserve hmeasure] at h
      cases h
  · rintro ⟨entries, hentries, hraw⟩
    obtain ⟨o, hmeasure, hv⟩ :=
      measureReceipt_receipt hrepr hdepth hsha hexpected hentries hraw hlength
    rw [hobserve hmeasure]
    exact hv

end Observe

/-! ## §6. The document and its verification. -/

/-- `source_revision.txt` holds this revision. -/
def RevisionMarked (root : Directory) (revision : PyStr) : Prop :=
  ∃ text, sourceMarker root = .ok text ∧ stripLower text = revision

theorem not_space_of_hex {c : Nat} (h : isLowerHex c = true) :
    isSpaceChar c = false ∧ asciiLower c = c := by
  simp only [isLowerHex, Bool.or_eq_true, Bool.and_eq_true, decide_eq_true_eq] at h
  constructor
  · simp only [isSpaceChar, Bool.or_eq_false_iff, Bool.and_eq_false_iff, decide_eq_false_iff_not,
      beq_eq_false_iff_ne]
    omega
  · unfold asciiLower isUpper
    rw [if_neg]
    rw [Bool.and_eq_true, decide_eq_true_eq, decide_eq_true_eq]
    omega

/-- A revision is as it is after `.strip().lower()`. -/
theorem stripLower_sha40 {s : PyStr} (h : isSha40 s = true) : stripLower s = s := by
  unfold isSha40 at h
  rw [Bool.and_eq_true, List.all_eq_true] at h
  have hstrip : strip s = s := strip_of_forall (fun c hc => (not_space_of_hex (h.2 c hc)).1)
  unfold stripLower
  rw [hstrip]
  have hlower : s.map asciiLower = s.map id :=
    List.map_congr_left (fun c hc => (not_space_of_hex (h.2 c hc)).2)
  rw [hlower, List.map_id]

theorem sourceRevisionOf_iff {root : Directory} {expected revision : PyStr}
    (hexpected : isSha40 expected = true) :
    sourceRevisionOf root (some expected) = .ok revision ↔
      RevisionMarked root expected ∧ revision = expected := by
  have hne : expected.isEmpty = false := by
    cases expected with
    | nil => cases hexpected
    | cons c cs => rfl
  unfold sourceRevisionOf
  simp only [Option.getD_some, stripLower_sha40 hexpected, hne, hexpected]
  constructor
  · intro h
    obtain ⟨text, htext, h⟩ := ok_of_bind h
    obtain ⟨_, h⟩ := ok_of_guard h
    obtain ⟨_, h⟩ := ok_of_guard h
    obtain ⟨hsame, h⟩ := ok_of_guard h
    cases h
    have hsame : expected = stripLower text := by simpa using hsame
    exact ⟨⟨text, htext, hsame.symm⟩, rfl⟩
  · rintro ⟨⟨text, htext, hmark⟩, rfl⟩
    simp only [htext, hmark, hexpected, bind, Except.bind]
    simp [pure, Except.pure]

/-- **When `build_receipt_document` succeeds**, and what it returns then. -/
theorem buildReceiptDocument_iff (rt : Runtime) (root : Directory) {expected : PyStr}
    {document : Json} (hexpected : isSha40 expected = true) :
    buildReceiptDocument rt root (some expected) = .ok document ↔
      RevisionMarked root expected ∧ ∃ entries, collectPayloadEntries rt root = .ok entries ∧
        document = receiptDocument rt expected entries := by
  unfold buildReceiptDocument
  constructor
  · intro h
    obtain ⟨revision, hrevision, h⟩ := ok_of_bind h
    obtain ⟨entries, hentries, h⟩ := ok_of_bind h
    cases h
    obtain ⟨hmarked, rfl⟩ := (sourceRevisionOf_iff hexpected).mp hrevision
    exact ⟨hmarked, entries, hentries, rfl⟩
  · rintro ⟨hmarked, entries, hentries, rfl⟩
    rw [(sourceRevisionOf_iff hexpected).mpr ⟨hmarked, rfl⟩, hentries]
    rfl

/-- **Build-receipt observation is exact**: VERIFIED stands for one byte string, the
receipt of the tree's entries under the expected revision with a line end.  This is
what `build_receipt_document` makes where it succeeds; it needs the marker of the tree
to hold the revision besides. -/
theorem build_receipt_exact (rt : Interpreter) (hrepr : ReprRoundTrip rt)
    (hdepth : 4 ≤ rt.scanDepth) (hsha : ∀ bytes, isSha256Hex (rt.sha256 bytes) = true)
    (root : Directory) (expected : PyStr) (hexpected : isSha40 expected = true) (required : Bool)
    (stored : FileContent) (hlength : stored.bytes.length ≤ maxReceiptBytes) :
    let verified (receipt : FileContent) :=
      (observeBuildReceipt rt root (some expected) required (some (.file receipt))).state = .verified
    (verified stored ↔ ∃ entries, collectPayloadEntries rt.toRuntime root = .ok entries ∧
      stored.bytes
        = canonicalBytes rt.toRuntime (receiptDocument rt.toRuntime expected entries) ++ [10]) ∧
    (∀ document, buildReceiptDocument rt.toRuntime root (some expected) = .ok document →
      (verified stored ↔ stored.bytes = canonicalBytes rt.toRuntime document ++ [10])) ∧
    ((∃ document, buildReceiptDocument rt.toRuntime root (some expected) = .ok document) ↔
      RevisionMarked root expected ∧
        ∃ entries, collectPayloadEntries rt.toRuntime root = .ok entries) ∧
    (∀ other : FileContent, other.bytes.length ≤ maxReceiptBytes →
      verified stored → verified other → other.bytes = stored.bytes) := by
  have hiff := fun (receipt : FileContent) (h : receipt.bytes.length ≤ maxReceiptBytes) =>
    observe_verified_iff root required hrepr hdepth hsha hexpected receipt h
  refine ⟨hiff stored hlength, ?_, ?_, ?_⟩
  · intro document hdocument
    obtain ⟨_, entries, hentries, rfl⟩ :=
      (buildReceiptDocument_iff rt.toRuntime root hexpected).mp hdocument
    refine (hiff stored hlength).trans ⟨?_, fun hraw => ⟨entries, hentries, hraw⟩⟩
    rintro ⟨entries', hentries', hraw⟩
    rw [hentries] at hentries'
    cases hentries'
    exact hraw
  · constructor
    · rintro ⟨document, hdocument⟩
      obtain ⟨hmarked, entries, hentries, _⟩ :=
        (buildReceiptDocument_iff rt.toRuntime root hexpected).mp hdocument
      exact ⟨hmarked, entries, hentries⟩
    · rintro ⟨hmarked, entries, hentries⟩
      exact ⟨_, (buildReceiptDocument_iff rt.toRuntime root hexpected).mpr
        ⟨hmarked, entries, hentries, rfl⟩⟩
  · intro other hother hstored hverified
    obtain ⟨entries, hentries, hraw⟩ := (hiff stored hlength).mp hstored
    obtain ⟨entries', hentries', hraw'⟩ := (hiff other hother).mp hverified
    rw [hentries] at hentries'
    cases hentries'
    rw [hraw, hraw']

/-- A file of ASCII text. -/
def textFile (text : List UInt8) (h : text.length < 2 ^ 63) : Node := .file ⟨text, h⟩

/-- An application tree; `__pycache__` is no part of the payload. -/
def sampleTree (marker : List UInt8) (h : marker.length < 2 ^ 63) : Directory :=
  (py "lyte", .directory [
    (py "__pycache__", .directory [(py "x", textFile [1] (by decide))]),
    (py "app.py", textFile [49, 10] (by decide))]) ::
  ((payloadRoots.drop 1).map (fun name => (name, .directory [])) ++
    (payloadFiles.take 5).map (fun name => (name, textFile [65, 10] (by decide))) ++
    [(sourceRevisionName, textFile marker h)])

def sampleRevision : PyStr := List.replicate 40 97

/-- The revision with a line end, as the marker file has it. -/
def sampleMarker : List UInt8 := List.replicate 40 97 ++ [10]

def markedTree : Directory := sampleTree sampleMarker (by decide)

/-- The same tree with `main` in place of the revision. -/
def unmarkedTree : Directory := sampleTree [109, 97, 105, 110, 10] (by decide)

/-- The receipt of a tree under `sampleRevision`, empty where there is none. -/
def sampleReceiptBytes (root : Directory) : List UInt8 :=
  match collectPayloadEntries integerRuntime.toRuntime root with
  | .ok entries => canonicalBytes integerRuntime.toRuntime
      (receiptDocument integerRuntime.toRuntime sampleRevision entries) ++ [10]
  | .error _ => []

theorem sampleTrees_collected : ∀ root ∈ [markedTree, unmarkedTree],
    (collectPayloadEntries integerRuntime.toRuntime root).toOption.isSome = true := by
  decide +kernel

theorem sampleTrees_length : ∀ root ∈ [markedTree, unmarkedTree],
    (sampleReceiptBytes root).length ≤ 4000 := by
  decide +kernel

theorem markedTree_marked : RevisionMarked markedTree sampleRevision := by
  have hmarker : (sourceMarker markedTree).toOption.map stripLower = some sampleRevision := by
    decide +kernel
  cases htext : sourceMarker markedTree with
  | error e =>
    rw [htext] at hmarker
    cases hmarker
  | ok text =>
    rw [htext] at hmarker
    exact ⟨text, htext, Option.some.inj hmarker⟩

theorem unmarkedTree_unmarked : ¬ RevisionMarked unmarkedTree sampleRevision := by
  have hmarker : (sourceMarker unmarkedTree).toOption.map stripLower ≠ some sampleRevision := by
    decide +kernel
  rintro ⟨text, htext, hmark⟩
  rw [htext] at hmarker
  exact hmarker (congrArg some hmark)

/-- The stored receipt of a sample tree. -/
theorem sampleTreeReceipt (root : Directory) (h : root ∈ [markedTree, unmarkedTree]) :
    ∃ entries, ∃ stored : FileContent,
      collectPayloadEntries integerRuntime.toRuntime root = .ok entries ∧
      stored.bytes.length ≤ maxReceiptBytes ∧ stored.bytes = canonicalBytes integerRuntime.toRuntime
        (receiptDocument integerRuntime.toRuntime sampleRevision entries) ++ [10] := by
  have hlength := sampleTrees_length root h
  have hcollected := sampleTrees_collected root h
  cases hentries : collectPayloadEntries integerRuntime.toRuntime root with
  | error e =>
    rw [hentries] at hcollected
    cases hcollected
  | ok entries =>
    refine ⟨entries, ⟨sampleReceiptBytes root, hlength.trans_lt (by decide)⟩, rfl,
      hlength.trans (by decide), ?_⟩
    show sampleReceiptBytes root = _
    unfold sampleReceiptBytes
    rw [hentries]

/-- A receipt that `build_receipt_document` makes is verified. -/
theorem build_receipt_exact_sample : ∃ document, ∃ stored : FileContent,
    buildReceiptDocument integerRuntime.toRuntime markedTree (some sampleRevision) = .ok document ∧
    stored.bytes = canonicalBytes integerRuntime.toRuntime document ++ [10] ∧
    (observeBuildReceipt integerRuntime markedTree (some sampleRevision) true
      (some (.file stored))).state = .verified := by
  obtain ⟨entries, stored, hentries, hlength, hraw⟩ := sampleTreeReceipt markedTree (by simp)
  have hexact := build_receipt_exact integerRuntime integerRuntime_repr (by decide)
    polynomialDigest_hex markedTree sampleRevision (by decide) true stored hlength
  have hsha40 : isSha40 sampleRevision = true := by decide
  have hdocument := (buildReceiptDocument_iff integerRuntime.toRuntime markedTree hsha40).mpr
    ⟨markedTree_marked, entries, hentries, rfl⟩
  exact ⟨_, stored, hdocument, hraw, (hexact.2.1 _ hdocument).mpr hraw⟩

/-- A receipt may be verified where `build_receipt_document` fails: the marker of the tree
does not hold the revision. -/
theorem build_receipt_unmarked : ¬ ∀ (rt : Interpreter) (root : Directory) (expected : PyStr)
    (required : Bool) (stored : FileContent), ReprRoundTrip rt → 4 ≤ rt.scanDepth →
    (∀ bytes, isSha256Hex (rt.sha256 bytes) = true) → isSha40 expected = true →
    stored.bytes.length ≤ maxReceiptBytes →
    ((observeBuildReceipt rt root (some expected) required (some (.file stored))).state = .verified ↔
      ∃ document, buildReceiptDocument rt.toRuntime root (some expected) = .ok document ∧
        stored.bytes = canonicalBytes rt.toRuntime document ++ [10]) := by
  intro h
  obtain ⟨entries, stored, hentries, hlength, hraw⟩ := sampleTreeReceipt unmarkedTree (by simp)
  have hverified := (observe_verified_iff unmarkedTree true integerRuntime_repr (by decide)
    polynomialDigest_hex (by decide) stored hlength).mpr ⟨entries, hentries, hraw⟩
  obtain ⟨document, hdocument, _⟩ := (h integerRuntime unmarkedTree sampleRevision true stored
    integerRuntime_repr (by decide) polynomialDigest_hex (by decide) hlength).mp hverified
  exact unmarkedTree_unmarked
    ((buildReceiptDocument_iff integerRuntime.toRuntime unmarkedTree (by decide)).mp hdocument).1

end Lyte
