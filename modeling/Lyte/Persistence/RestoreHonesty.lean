import Mathlib.Data.List.Perm.Basic
import Lyte.Persistence.CanonicalLines

/-
  Lyte.Persistence.RestoreHonesty — a restore is faithful, and says so honestly.

  Two databases with one summary hold the same rows, table by table: equal
  digests are digests of the same lines, the lines determine the values, and a
  value determines the column it was normalized from.  So what passes the
  comparison inside of the transaction is the snapshot, and what passes it on
  the connection behind the commit is the snapshot again.

      summarize_same         equal summaries, same rows
      restore_effect_honest  what each recorded effect says is true
-/

namespace Lyte

open Transact

/-! ## §1. Rows that hold the same. -/

/-- Two columns hold the same: DateTimes the same instant, values the same but for the order
of object keys. -/
def Cell.Same : Cell → Cell → Prop
  | .value v, .value w => v.canonical = w.canonical
  | .instant a, .instant b => a.map Stamp.instant = b.map Stamp.instant
  | _, _ => False

/-- Two rows hold the same, column by column. -/
def SameRow (x y : Entry) : Prop :=
  List.Forall₂ (fun a b => a.1 = b.1 ∧ a.2.Same b.2) x.columns y.columns

/-- **Two tables hold the same rows**, whatever the order. -/
def SameTable (xs ys : List Entry) : Prop := ∃ zs, zs.Perm ys ∧ List.Forall₂ SameRow xs zs

/-- Every table holds the same rows. -/
def SameRows (db db' : Db) : Prop := ∀ t, SameTable (db.entries t) (db'.entries t)

/-- Which columns are DateTimes. -/
def shape (columns : TableRow) : List (PyStr × Bool) :=
  columns.map (fun c => (c.1, match c.2 with
    | .value _ => false
    | .instant _ => true))

/-- The rows of one table have one shape. -/
theorem shape_columns {x y : Entry} (h : x.table = y.table) :
    shape x.columns = shape y.columns := by
  cases x with
  | tenant r => cases y <;> first | rfl | cases h
  | workspace r => cases y <;> first | rfl | cases h
  | head r => cases y <;> first | rfl | cases h
  | row r =>
    cases y with
    | row r' =>
      have hstream : r.stream = r'.stream := by
        simp only [Entry.table, TableName.stream.injEq] at h
        exact h
      cases r <;> cases r' <;> first | rfl | cases hstream
    | _ => cases h

theorem entries_table {db : Db} {t : TableName} {e : Entry} (h : e ∈ db.entries t) :
    e.table = t := by
  cases t with
  | stream k =>
    obtain ⟨r, hr, rfl⟩ := List.mem_map.mp h
    cases k <;> obtain ⟨x, _, rfl⟩ := List.mem_map.mp hr <;> rfl
  | _ =>
    obtain ⟨r, _, rfl⟩ := List.mem_map.mp h
    rfl

/-- No table has two columns of one name. -/
theorem columnNames_nodup (t : TableName) : t.columnNames.Nodup := by
  cases t with
  | stream k => cases k <;> simp [TableName.columnNames, mixinColumnNames]
  | _ => simp [TableName.columnNames]

/-- A string of the source has no surrogates. -/
theorem joined_py (s : String) : joined (py s) = true := by
  unfold py
  induction s.toList with
  | nil => rfl
  | cons c cs ih =>
    have hc : c.toNat ≤ 0x10FFFF ∧ isHighSurrogate c.toNat = false := by
      have hvalid := c.valid
      unfold isHighSurrogate
      rw [Bool.and_eq_false_iff, decide_eq_false_iff_not, decide_eq_false_iff_not]
      rcases hvalid with h | h
      · exact ⟨by show c.val.toNat ≤ _; omega, .inl (by show ¬ _ ≤ c.val.toNat; omega)⟩
      · exact ⟨by show c.val.toNat ≤ _; omega, .inr (by show ¬ c.val.toNat < _; omega)⟩
    cases cs with
    | nil => exact decide_eq_true hc.1
    | cons d ds =>
      rw [List.map_cons] at ih ⊢
      rw [List.map_cons, joined, ih, hc.2, Bool.false_and, Bool.not_false, Bool.and_true,
        Bool.and_true]
      exact decide_eq_true hc.1

theorem columnNames_joined (t : TableName) : ∀ name ∈ t.columnNames, joined name = true := by
  cases t with
  | stream k => cases k <;> simp [TableName.columnNames, mixinColumnNames, joined_py]
  | _ => simp [TableName.columnNames, joined_py]

/-! ## §2. Normalized columns. -/

/-- The text of an instant is printable ASCII. -/
theorem isoText_ascii (micros : Int) : ∀ c ∈ isoText micros, 32 ≤ c ∧ c < 128 := by
  have hpad2 : ∀ n, ∀ c ∈ pad2 n, 32 ≤ c ∧ c < 128 := by
    intro n c hc
    unfold pad2 at hc
    simp only [List.mem_cons, List.not_mem_nil, or_false] at hc
    omega
  intro c hc
  unfold isoText pad4 pad6 at hc
  simp only [List.mem_append, List.mem_singleton] at hc
  have hsep : ∀ k ∈ [45, 84, 58, 46, 90], 32 ≤ k ∧ k < 128 := by decide
  split at hc
  · simp only [List.not_mem_nil, or_false] at hc
    grind
  · simp only [List.mem_append, List.mem_singleton] at hc
    grind

theorem isoText_snoc (micros : Int) : (isoText micros).dropLast ++ [90] = isoText micros := by
  obtain ⟨body, hbody⟩ : ∃ body, isoText micros = body ++ [90] := ⟨_, rfl⟩
  rw [hbody, List.dropLast_concat]

/-- **The text of a DateTime determines its instant.** -/
theorem normalizeInstant_inj {s t : Stamp} {text : PyStr} (hs : normalizeInstant s = .ok text)
    (ht : normalizeInstant t = .ok text) : s.instant = t.instant := by
  unfold normalizeInstant at hs ht
  simp only at hs ht
  split at hs
  · next hrange =>
    split at ht
    · next hrange' =>
      cases hs
      have hbody := List.append_cancel_right (Except.ok.inj ht)
      have htext : isoText t.instant = isoText s.instant := by
        rw [← isoText_snoc, ← isoText_snoc s.instant]
        show (isoText (t.wall - t.offset.getD 0)).dropLast ++ [90] = _
        rw [hbody]
        rfl
      have hread := parseIso_isoText hrange.1 hrange.2
      have hread' := parseIso_isoText hrange'.1 hrange'.2
      have hsame : parseIso (isoText t.instant) = some s.instant := by
        rw [htext]
        exact hread
      exact (Option.some.inj (hread'.symm.trans hsame)).symm
    · cases ht
  · cases hs

theorem joined_of_ascii {s : PyStr} (h : ∀ c ∈ s, 32 ≤ c ∧ c < 128) : joined s = true := by
  induction s with
  | nil => rfl
  | cons c s ih =>
    have hc := (h c List.mem_cons_self).2
    have hrest := ih (fun x hx => h x (List.mem_cons_of_mem _ hx))
    cases s with
    | nil => exact decide_eq_true (by omega)
    | cons d s =>
      rw [joined, hrest, isHighSurrogate_small (by omega), Bool.and_true, Bool.false_and,
        Bool.not_false, Bool.and_true, decide_eq_true_eq]
      omega

theorem normalize_loaded {c : Cell} (hc : c.Loaded) {v : Json} (h : c.normalize = .ok v) :
    v.nodupKeys = true ∧ v.allStrings joined = true := by
  cases c with
  | value w =>
    cases h
    exact hc
  | instant s =>
    cases s with
    | none =>
      cases h
      exact ⟨rfl, rfl⟩
    | some s =>
      unfold Cell.normalize normalizeInstant at h
      simp only at h
      split at h
      · cases h
        refine ⟨rfl, joined_of_ascii (fun c hc => ?_)⟩
        rcases List.mem_append.mp hc with hc | hc
        · exact isoText_ascii _ c (List.dropLast_subset _ hc)
        · exact (show ∀ c ∈ py "+00:00", 32 ≤ c ∧ c < 128 by decide) c hc
      · cases h

theorem normalize_instant {s : Stamp} {v : Json} (h : (Cell.instant (some s)).normalize = .ok v) :
    ∃ text, normalizeInstant s = .ok text ∧ v = .str text := by
  have hmap : (normalizeInstant s).map Json.str = .ok v := h
  cases hs : normalizeInstant s with
  | error e =>
    rw [hs] at hmap
    cases hmap
  | ok text =>
    rw [hs] at hmap
    cases hmap
    exact ⟨text, rfl, rfl⟩

/-- **A normalized column determines what the column held.** -/
theorem normalize_same {a b : Cell} {v w : Json} (hshape : shape [([], a)] = shape [([], b)])
    (ha : a.normalize = .ok v) (hb : b.normalize = .ok w) (h : v.canonical = w.canonical) :
    a.Same b := by
  cases a with
  | value v' =>
    cases b with
    | value w' =>
      cases ha
      cases hb
      exact h
    | instant t => cases hshape
  | instant s =>
    cases b with
    | value w' => cases hshape
    | instant t =>
      cases s with
      | none =>
        cases ha
        cases t with
        | none => rfl
        | some t =>
          obtain ⟨text, _, rfl⟩ := normalize_instant hb
          cases h
      | some s =>
        obtain ⟨text, hs, rfl⟩ := normalize_instant ha
        cases t with
        | none =>
          cases hb
          cases h
        | some t =>
          obtain ⟨text', ht, rfl⟩ := normalize_instant hb
          cases h
          show some s.instant = some t.instant
          rw [normalizeInstant_inj hs ht]

/-! ## §3. Normalized rows. -/

theorem normalizeFields_names {columns : TableRow} {fields : List (PyStr × Json)}
    (h : normalizeFields columns = .ok fields) : fields.map Prod.fst = columns.map Prod.fst := by
  induction columns generalizing fields with
  | nil =>
    cases h
    rfl
  | cons c columns ih =>
    obtain ⟨v, _, h⟩ := ok_of_bind h
    obtain ⟨fs, hfs, h⟩ := ok_of_bind h
    cases h
    rw [List.map_cons, List.map_cons, ih hfs]

theorem normalizeFields_loaded {columns : TableRow} (hc : ∀ p ∈ columns, p.2.Loaded)
    {fields : List (PyStr × Json)} (h : normalizeFields columns = .ok fields) :
    ∀ f ∈ fields, f.2.nodupKeys = true ∧ f.2.allStrings joined = true := by
  induction columns generalizing fields with
  | nil =>
    cases h
    exact fun f hf => by cases hf
  | cons c columns ih =>
    obtain ⟨v, hv, h⟩ := ok_of_bind h
    obtain ⟨fs, hfs, h⟩ := ok_of_bind h
    cases h
    intro f hf
    rcases List.mem_cons.mp hf with rfl | hf
    · exact normalize_loaded (hc c List.mem_cons_self) hv
    · exact ih (fun p hp => hc p (List.mem_cons_of_mem _ hp)) hfs f hf

/-- Rows of one shape that are normalized to the same fields hold the same. -/
theorem normalizeFields_same {xs ys : TableRow} {fs gs : List (PyStr × Json)}
    (hshape : shape xs = shape ys) (hfs : normalizeFields xs = .ok fs)
    (hgs : normalizeFields ys = .ok gs)
    (h : fs.map (fun f => (f.1, f.2.canonical)) = gs.map (fun f => (f.1, f.2.canonical))) :
    List.Forall₂ (fun a b => a.1 = b.1 ∧ a.2.Same b.2) xs ys := by
  induction xs generalizing ys fs gs with
  | nil =>
    cases ys with
    | nil => exact .nil
    | cons y ys => cases hshape
  | cons x xs ih =>
    cases ys with
    | nil => cases hshape
    | cons y ys =>
      obtain ⟨v, hv, hfs⟩ := ok_of_bind hfs
      obtain ⟨fs', hfs', hfs⟩ := ok_of_bind hfs
      cases hfs
      obtain ⟨w, hw, hgs⟩ := ok_of_bind hgs
      obtain ⟨gs', hgs', hgs⟩ := ok_of_bind hgs
      cases hgs
      simp only [shape, List.map_cons, List.cons.injEq, Prod.mk.injEq] at hshape h
      refine .cons ⟨h.1.1, normalize_same ?_ hv hw h.1.2⟩ (ih hshape.2 hfs' hgs' h.2)
      simp only [shape, List.map_cons, List.map_nil, hshape.1.2]

section Summaries

variable {rt : Interpreter}

/-! ## §4. Equal summaries. -/

/-- The objects behind the lines of a table. -/
theorem rowLines_values {es : List Entry} {lines : List (List UInt8)}
    (h : es.mapM (rowLine rt.toRuntime) = .ok lines) :
    ∃ rows, List.Forall₂ (fun e fs => normalizeFields e.columns = .ok fs) es rows ∧
      (rows.map Json.dict).mapM (canonicalLine rt.toRuntime) = .ok lines := by
  induction es generalizing lines with
  | nil =>
    cases h
    exact ⟨[], .nil, rfl⟩
  | cons e es ih =>
    rw [List.mapM_cons] at h
    obtain ⟨line, hline, h⟩ := ok_of_bind h
    obtain ⟨lines', hlines, h⟩ := ok_of_bind h
    cases h
    obtain ⟨fs, hfs, hline⟩ := ok_of_bind hline
    obtain ⟨rows, hrows, hrest⟩ := ih hlines
    refine ⟨fs :: rows, .cons hfs hrows, ?_⟩
    rw [List.map_cons, List.mapM_cons, hline, hrest]
    rfl

/-- The objects of a table can be written and read back. -/
theorem rows_loaded {es : List Entry} {rows : List (List (PyStr × Json))}
    (hloaded : ∀ e ∈ es, ∀ p ∈ e.columns, p.2.Loaded)
    (h : List.Forall₂ (fun e fs => normalizeFields e.columns = .ok fs) es rows) :
    ∀ v ∈ rows.map Json.dict, v.nodupKeys = true ∧ v.allStrings joined = true := by
  induction h with
  | nil => exact fun v hv => by cases hv
  | cons hfs hrows ih =>
    rename_i e fs es rows
    intro v hv
    rcases List.mem_cons.mp hv with rfl | hv
    · have hall := normalizeFields_loaded (hloaded e List.mem_cons_self) hfs
      have hnames := normalizeFields_names hfs
      rw [columns_names] at hnames
      constructor
      · rw [Json.nodupKeys, nodupKeysFields_eq, hnames, decide_eq_true (columnNames_nodup _),
          Bool.true_and, List.all_eq_true]
        exact fun f hf => (hall f hf).1
      · rw [Json.allStrings, allStringsFields_eq, List.all_eq_true]
        intro f hf
        rw [Bool.and_eq_true]
        refine ⟨columnNames_joined e.table f.1 ?_, (hall f hf).2⟩
        rw [← hnames]
        exact List.mem_map_of_mem hf
    · exact ih (fun e he => hloaded e (List.mem_cons_of_mem _ he)) v hv

/-- Rows of one table with the same objects hold the same. -/
theorem rows_same {t : TableName} {es es' : List Entry} {rows rows' : List (List (PyStr × Json))}
    (ht : ∀ e ∈ es, e.table = t) (ht' : ∀ e ∈ es', e.table = t)
    (h : List.Forall₂ (fun e fs => normalizeFields e.columns = .ok fs) es rows)
    (h' : List.Forall₂ (fun e fs => normalizeFields e.columns = .ok fs) es' rows')
    (heq : (rows.map Json.dict).map Json.canonical = (rows'.map Json.dict).map Json.canonical) :
    List.Forall₂ SameRow es es' := by
  induction h generalizing es' rows' with
  | nil =>
    cases h' with
    | nil => exact .nil
    | cons _ _ => cases heq
  | cons hfs hrows ih =>
    rename_i e fs es rows
    cases h' with
    | nil => cases heq
    | cons hgs hrest =>
      rename_i e' gs es' rows'
      have he : e.table = e'.table := by
        rw [ht e List.mem_cons_self, ht' e' List.mem_cons_self]
      simp only [List.map_cons, List.cons.injEq] at heq
      have hnames : fs.map Prod.fst = gs.map Prod.fst := by
        rw [normalizeFields_names hfs, normalizeFields_names hgs, columns_names, columns_names, he]
      have hnodup : (fs.map Prod.fst).Nodup := by
        rw [normalizeFields_names hfs, columns_names]
        exact columnNames_nodup _
      refine .cons ?_ (ih (fun x hx => ht x (List.mem_cons_of_mem _ hx))
        (fun x hx => ht' x (List.mem_cons_of_mem _ hx)) hrest heq.2)
      exact normalizeFields_same (shape_columns he) hfs hgs
        (fields_of_canonical hnodup hnames heq.1)

/-- **Equal digests of a table are digests of the same rows.** -/
theorem summarizeTable_same (hrepr : ReprRoundTrip rt) (hsha : Function.Injective rt.sha256)
    {c c' : Connection} {t : TableName} {s : TableSummary}
    (h : summarizeTable rt.toRuntime c t = .ok s) (h' : summarizeTable rt.toRuntime c' t = .ok s) :
    SameTable (c.rows.entries t) (c'.rows.entries t) := by
  obtain ⟨lines, hlines, h⟩ := ok_of_bind h
  obtain ⟨lines', hlines', h'⟩ := ok_of_bind h'
  cases h
  simp only [pure, Except.pure, Except.ok.injEq, TableSummary.mk.injEq] at h'
  have hbytes : lines.flatten = lines'.flatten := (hsha h'.2.2).symm
  obtain ⟨rows, hrows, hvalues⟩ := rowLines_values hlines
  obtain ⟨rows', hrows', hvalues'⟩ := rowLines_values hlines'
  have hsame := canonicalLines_inj hrepr (rows_loaded (c.loaded t) hrows)
    (rows_loaded (c'.loaded t) hrows') hvalues hvalues' hbytes
  have htable : ∀ c : Connection, ∀ e ∈ c.listed t, e.table = t :=
    fun c e he => entries_table ((c.listed_perm t).mem_iff.mp he)
  have hlisted : List.Forall₂ SameRow (c.listed t) (c'.listed t) :=
    rows_same (htable c) (htable c') hrows hrows' hsame
  obtain ⟨zs, hzs, hperm⟩ := List.perm_comp_forall₂ (c.listed_perm t).symm hlisted
  exact ⟨zs, hperm.trans (c'.listed_perm t), hzs⟩

theorem mapM_same {ε α β : Type} {f g : α → Except ε β} {as : List α} {bs : List β}
    (hf : as.mapM f = .ok bs) (hg : as.mapM g = .ok bs) :
    ∀ a ∈ as, ∃ b, b ∈ bs ∧ f a = .ok b ∧ g a = .ok b := by
  induction as generalizing bs with
  | nil => exact fun a ha => by cases ha
  | cons a as ih =>
    rw [List.mapM_cons] at hf hg
    obtain ⟨b, hb, hf⟩ := ok_of_bind hf
    obtain ⟨bs', hbs, hf⟩ := ok_of_bind hf
    cases hf
    obtain ⟨b', hb', hg⟩ := ok_of_bind hg
    obtain ⟨bs'', hbs', hg⟩ := ok_of_bind hg
    cases hg
    intro x hx
    rcases List.mem_cons.mp hx with rfl | hx
    · exact ⟨b, List.mem_cons_self, hb, hb'⟩
    · obtain ⟨y, hy, h⟩ := ih hbs hbs' x hx
      exact ⟨y, List.mem_cons_of_mem _ hy, h⟩

/-- What a summary was computed from. -/
theorem summarize_ok {rt : Runtime} {c : Connection} {requireMigration : Bool} {s : Summary}
    (h : summarize rt c requireMigration = .ok s) :
    sortedTables.mapM (summarizeTable rt c) = .ok s.tables ∧
      chains rt c.rows = .ok s.verifiedStreams := by
  unfold summarize at h
  obtain ⟨_, _, h⟩ := ok_of_bind h
  obtain ⟨_, _, h⟩ := ok_of_bind h
  obtain ⟨tables, htables, h⟩ := ok_of_bind h
  obtain ⟨logical, _, h⟩ := ok_of_bind h
  obtain ⟨verified, hverified, h⟩ := ok_of_bind h
  cases h
  exact ⟨htables, hverified⟩

/-- **Databases with one summary hold the same rows.** -/
theorem summarize_same (hrepr : ReprRoundTrip rt) (hsha : Function.Injective rt.sha256)
    {c c' : Connection} {r r' : Bool} {s : Summary} (h : summarize rt.toRuntime c r = .ok s)
    (h' : summarize rt.toRuntime c' r' = .ok s) : SameRows c.rows c'.rows := by
  intro t
  obtain ⟨b, _, hb, hb'⟩ := mapM_same (summarize_ok h).1 (summarize_ok h').1 t (mem_sortedTables t)
  exact summarizeTable_same hrepr hsha hb hb'

/-- A table that counts no rows has none. -/
theorem summarize_empty {rt : Runtime} {c : Connection} {r : Bool} {s : Summary}
    (h : summarize rt c r = .ok s) (hempty : s.tables.any (fun t => t.rows != 0) = false) :
    ∀ t, c.rows.entries t = [] := by
  intro t
  obtain ⟨b, hmem, hb, _⟩ := mapM_same (summarize_ok h).1 (summarize_ok h).1 t (mem_sortedTables t)
  obtain ⟨lines, hlines, hb⟩ := ok_of_bind hb
  cases hb
  have hcount : lines.length = 0 := by
    rw [List.any_eq_false] at hempty
    have hzero := hempty _ hmem
    simpa using hzero
  have hlisted : (c.listed t).length = 0 := (ok_of_mapM hlines).1.trans hcount
  have hperm := (c.listed_perm t).length_eq
  rw [hlisted] at hperm
  exact List.eq_nil_of_length_eq_zero hperm.symm

/-! ## §5. The run. -/

section Run

variable {env : RestoreEnv} {expectedSha256 targetIdentity : PyStr}

/-- What was compared before the commit. -/
theorem importRows_ok {source imported : Connection} {expected : Summary}
    (h : importRows rt.toRuntime env targetIdentity source expected = .ok imported) :
    (∀ t, env.target.rows.entries t = []) ∧
      summarize rt.toRuntime imported true = .ok expected := by
  unfold importRows at h
  obtain ⟨_, _, h⟩ := ok_of_bind h
  obtain ⟨_, _, h⟩ := ok_of_bind h
  obtain ⟨_, _, h⟩ := ok_of_bind h
  obtain ⟨identity, _, h⟩ := ok_of_bind h
  obtain ⟨_, h⟩ := ok_of_guard h
  obtain ⟨_, _, h⟩ := ok_of_bind h
  obtain ⟨_, _, h⟩ := ok_of_bind h
  obtain ⟨before, hbefore, h⟩ := ok_of_bind h
  obtain ⟨hempty, h⟩ := ok_of_guard h
  obtain ⟨result, _, h⟩ := ok_of_bind h
  obtain ⟨_, _, h⟩ := ok_of_bind h
  obtain ⟨after, hafter, h⟩ := ok_of_bind h
  obtain ⟨hsame, h⟩ := ok_of_guard h
  cases h
  rw [not_not] at hsame
  rw [hsame] at hafter
  exact ⟨summarize_empty hbefore (Bool.eq_false_iff.mpr hempty), hafter⟩

/-- What was compared behind the commit. -/
theorem readBack_ok {expected s : Summary}
    (h : readBack rt.toRuntime env targetIdentity expected = .ok s) :
    summarize rt.toRuntime env.reread true = .ok expected := by
  unfold readBack at h
  obtain ⟨_, _, h⟩ := ok_of_bind h
  obtain ⟨_, _, h⟩ := ok_of_bind h
  obtain ⟨_, _, h⟩ := ok_of_bind h
  obtain ⟨identity, _, h⟩ := ok_of_bind h
  obtain ⟨_, h⟩ := ok_of_guard h
  obtain ⟨_, _, h⟩ := ok_of_bind h
  obtain ⟨after, hafter, h⟩ := ok_of_bind h
  obtain ⟨hsame, _⟩ := ok_of_guard h
  rw [not_not] at hsame
  rw [hsame] at hafter
  exact hafter

theorem qualify_ok {source : Connection} {expected : Summary}
    (h : qualify rt.toRuntime env expectedSha256 = .ok (source, expected)) :
    source = env.openSnapshot env.snapshot ∧
      summarize rt.toRuntime source false = .ok expected := by
  unfold qualify at h
  obtain ⟨_, _, h⟩ := ok_of_bind h
  obtain ⟨_, h⟩ := ok_of_guard h
  obtain ⟨_, _, h⟩ := ok_of_bind h
  obtain ⟨_, _, h⟩ := ok_of_bind h
  obtain ⟨_, h⟩ := ok_of_guard h
  obtain ⟨_, _, h⟩ := ok_of_bind h
  obtain ⟨_, _, h⟩ := ok_of_bind h
  obtain ⟨s, hs, h⟩ := ok_of_bind h
  cases h
  exact ⟨rfl, hs⟩

/-- **What the effect of a run says.** -/
structure EffectHonest (rt : Runtime) (env : RestoreEnv) (effect : RestoreEffect) (target : Db) :
    Prop where
  /-- `NOT_COMMITTED`: the rows are those of before. -/
  unchanged : effect = .notCommitted → target = env.target.rows
  /-- `COMMITTED`: the target was empty, and now holds the snapshot, with chains that the
  auditor accepts. -/
  imported : effect = .committed →
    (∀ t, env.target.rows.entries t = []) ∧
      SameRows (env.openSnapshot env.snapshot).rows target ∧ ∃ n, chains rt target = .ok n
  /-- `COMMIT_OUTCOME_UNKNOWN`: the commit itself raised. -/
  unknown : effect = .commitOutcomeUnknown → ∃ e tookEffect, env.commit = .raised e tookEffect

/-- What the result of a run says: the commit returned, and the read-back has the summary of
the snapshot. -/
def ReadBack (rt : Runtime) (env : RestoreEnv) : Prop :=
  env.commit = .returned ∧ SameRows (env.openSnapshot env.snapshot).rows env.reread.rows ∧
    ∃ s, summarize rt (env.openSnapshot env.snapshot) false = .ok s ∧
      summarize rt env.reread true = .ok s

theorem runRestore_honest (hrepr : ReprRoundTrip rt) (hsha : Function.Injective rt.sha256) :
    EffectHonest rt.toRuntime env (runRestore rt.toRuntime env expectedSha256 targetIdentity).effect
        (runRestore rt.toRuntime env expectedSha256 targetIdentity).target ∧
      ∀ s, (runRestore rt.toRuntime env expectedSha256 targetIdentity).result = .ok s →
        (runRestore rt.toRuntime env expectedSha256 targetIdentity).effect = .committed ∧
          ReadBack rt.toRuntime env := by
  unfold runRestore
  cases hq : qualify rt.toRuntime env expectedSha256 with
  | error e => exact ⟨⟨fun _ => rfl, nofun, nofun⟩, nofun⟩
  | ok p =>
    obtain ⟨source, expected⟩ := p
    obtain ⟨rfl, hsource⟩ := qualify_ok hq
    simp only
    cases hi : importRows rt.toRuntime env targetIdentity (env.openSnapshot env.snapshot)
        expected with
    | error e =>
      exact ⟨⟨fun _ => rfl, nofun, nofun⟩, nofun⟩
    | ok imported =>
      obtain ⟨hempty, himported⟩ := importRows_ok hi
      simp only
      cases hc : env.commit with
      | raised e tookEffect =>
        cases tookEffect with
        | true =>
          exact ⟨⟨nofun, nofun, fun _ => ⟨e, true, hc⟩⟩, nofun⟩
        | false =>
          exact ⟨⟨nofun, nofun, fun _ => ⟨e, false, hc⟩⟩, nofun⟩
      | returned =>
        refine ⟨⟨nofun, fun _ => ⟨hempty, ?_, ?_⟩, nofun⟩, ?_⟩
        · exact summarize_same hrepr hsha hsource himported
        · exact ⟨_, (summarize_ok himported).2⟩
        · intro s hs
          have hreread := readBack_ok hs
          exact ⟨rfl, hc, summarize_same hrepr hsha hsource hreread, expected, hsource, hreread⟩

/-! ## §6. The receipts. -/

/-- A file records an effect. -/
def Records (file : ReceiptFile) (effect : RestoreEffect) : Prop :=
  Json.get file.2 (py "effect") = .str effect.text

theorem RestoreEffect.text_inj {a b : RestoreEffect} (h : a.text = b.text) : a = b := by
  cases a <;> cases b <;> first | rfl | simp [RestoreEffect.text] at h

/-- Only the file that was written can be there, with the header before its body. -/
theorem writeReceipt_files {rt : Runtime} {name : PyStr} {body : List (PyStr × Json)}
    {file : ReceiptFile}
    (h : file ∈ (writeReceipt rt env name body).1) :
    file.1 = name ∧ Json.get file.2 (py "effect") = Json.get body (py "effect") := by
  have hget : ∀ header : List (PyStr × Json), (∀ f ∈ header, f.1 ≠ py "effect") →
      Json.get (header ++ body) (py "effect") = Json.get body (py "effect") := by
    intro header hheader
    induction header with
    | nil => rfl
    | cons f fs ih =>
      have hne : (py "effect" == f.1) = false :=
        beq_eq_false_iff_ne.mpr (Ne.symm (hheader f List.mem_cons_self))
      have hrest := ih (fun g hg => hheader g (List.mem_cons_of_mem _ hg))
      unfold Json.get Json.lookup at hrest ⊢
      rw [List.cons_append, List.lookup_cons, hne]
      exact hrest
  unfold writeReceipt at h
  simp only at h
  split at h
  · cases h
  · split at h
    · split at h
      · rw [List.mem_singleton] at h
        rw [h]
        exact ⟨rfl, hget _ (by simp)⟩
      · cases h
    · rw [List.mem_singleton] at h
      rw [h]
      exact ⟨rfl, hget _ (by simp)⟩

/-- **What a file says about a run**: its effect, if it names one, is that of the run, and a
result is written of a run with a result. -/
def SpeaksFor (run : RestoreRun) (file : ReceiptFile) : Prop :=
  (∀ effect, Records file effect → effect = run.effect) ∧
    (file.1 = py "result.json" → ∃ s, run.result = .ok s)

theorem recordFailure_files {rt : Runtime} {run : RestoreRun} {files : List ReceiptFile} {e : Exn}
    {intent : PyStr} (hfiles : ∀ f ∈ files, SpeaksFor run f) :
    (recordFailure rt env run files e intent).target = run.target ∧
      ∀ f ∈ (recordFailure rt env run files e intent).files, SpeaksFor run f := by
  have hwritten : ∀ f ∈ (writeReceipt rt env (py "failure.json")
      (failureBody env run.effect e intent)).1, SpeaksFor run f := by
    intro f hf
    obtain ⟨hname, heffect⟩ := writeReceipt_files hf
    constructor
    · intro effect hrecords
      unfold Records at hrecords
      rw [heffect] at hrecords
      have htext : (Json.str run.effect.text) = .str effect.text := by
        rw [← hrecords]
        simp [failureBody, Json.get, Json.lookup, List.lookup_cons, py_beq]
      exact (RestoreEffect.text_inj (Json.str.inj htext)).symm
    · intro hresult
      rw [hname] at hresult
      simp at hresult
  unfold recordFailure
  generalize writeReceipt rt env (py "failure.json") (failureBody env run.effect e intent) = w
    at hwritten
  obtain ⟨written, result⟩ := w
  have hall : ∀ f ∈ files ++ written, SpeaksFor run f := by
    intro f hf
    rcases List.mem_append.mp hf with hf | hf
    · exact hfiles f hf
    · exact hwritten f hf
  cases result with
  | error e' => exact ⟨rfl, hall⟩
  | ok _ => exact ⟨rfl, hall⟩

theorem recordRun_files {rt : Runtime} {run : RestoreRun} {files : List ReceiptFile}
    {intent : PyStr}
    (hfiles : ∀ f ∈ files, SpeaksFor run f) :
    (recordRun rt env expectedSha256 targetIdentity run files intent).target = run.target ∧
      ∀ f ∈ (recordRun rt env expectedSha256 targetIdentity run files intent).files,
        SpeaksFor run f := by
  unfold recordRun
  cases hresult : run.result with
  | error e => exact recordFailure_files hfiles
  | ok summary =>
    simp only
    have hwritten : ∀ f ∈ (writeReceipt rt env (py "result.json")
        (resultBody expectedSha256 targetIdentity run.effect summary intent)).1,
        SpeaksFor run f := by
      intro f hf
      obtain ⟨_, heffect⟩ := writeReceipt_files hf
      refine ⟨fun effect hrecords => ?_, fun _ => ⟨summary, hresult⟩⟩
      unfold Records at hrecords
      rw [heffect] at hrecords
      have htext : (Json.str run.effect.text) = .str effect.text := by
        rw [← hrecords]
        simp [resultBody, Json.get, Json.lookup, List.lookup_cons, py_beq]
      exact (RestoreEffect.text_inj (Json.str.inj htext)).symm
    generalize writeReceipt rt env (py "result.json")
      (resultBody expectedSha256 targetIdentity run.effect summary intent) = w at hwritten
    obtain ⟨written, result⟩ := w
    have hall : ∀ f ∈ files ++ written, SpeaksFor run f := by
      intro f hf
      rcases List.mem_append.mp hf with hf | hf
      · exact hfiles f hf
      · exact hwritten f hf
    cases result with
    | error e => exact recordFailure_files hall
    | ok _ => exact ⟨rfl, hall⟩

end Run

end Summaries

/-- **A restore is faithful and its recorded effect is honest.**  Whatever the snapshot and
the target hold, and whichever step raises: what a file of the output directory records as
the effect is true of the committed rows of the target, and the result is written only if
the read-back behind the commit was equal to the snapshot. -/
theorem restore_effect_honest (rt : Interpreter) (hrepr : ReprRoundTrip rt)
    (hsha : Function.Injective rt.sha256) (env : RestoreEnv)
    (expectedSha256 targetIdentity : PyStr) :
    ∀ file ∈ (restore rt.toRuntime env expectedSha256 targetIdentity).files,
      (∀ effect, Records file effect → EffectHonest rt.toRuntime env effect
        (restore rt.toRuntime env expectedSha256 targetIdentity).target) ∧
      (file.1 = py "result.json" → ReadBack rt.toRuntime env) := by
  have hintent : ∀ run, ∀ f ∈ (writeReceipt rt.toRuntime env (py "intent.json")
      (intentBody expectedSha256 targetIdentity)).1, SpeaksFor run f ∧
        (∀ effect, ¬ Records f effect) ∧ f.1 ≠ py "result.json" := by
    intro run f hf
    obtain ⟨hname, heffect⟩ := writeReceipt_files hf
    have hno : ∀ effect, ¬ Records f effect := by
      intro effect hrecords
      unfold Records at hrecords
      rw [heffect] at hrecords
      simp [intentBody, Json.get, Json.lookup, List.lookup_cons, py_beq] at hrecords
    have hother : f.1 ≠ py "result.json" := by
      rw [hname]
      simp
    exact ⟨⟨fun effect h => absurd h (hno effect), fun h => absurd h hother⟩, hno, hother⟩
  intro file hfile
  unfold restore at hfile ⊢
  split at hfile
  · cases hfile
  next hhex =>
  rw [if_neg hhex]
  cases hmake : env.raises .makeOutput with
  | some e =>
    rw [hmake] at hfile
    cases hfile
  | none =>
    rw [hmake] at hfile
    simp only at hfile ⊢
    generalize writeReceipt rt.toRuntime env (py "intent.json")
      (intentBody expectedSha256 targetIdentity) = w at hintent hfile ⊢
    obtain ⟨files, intent⟩ := w
    cases intent with
    | error e =>
      obtain ⟨_, hno, hother⟩ := hintent ⟨.notCommitted, env.target.rows, .error e⟩ file hfile
      exact ⟨fun effect h => absurd h (hno effect), fun h => absurd h hother⟩
    | ok intent =>
      simp only at hfile ⊢
      have hdisposed : ∀ o : RestoreOutcome,
          (disposed env o).files = o.files ∧ (disposed env o).target = o.target := by
        intro o
        unfold disposed
        split
        · exact ⟨rfl, rfl⟩
        · exact ⟨rfl, rfl⟩
      rw [(hdisposed _).1] at hfile
      rw [(hdisposed _).2]
      obtain ⟨htarget, hspeaks⟩ := @recordRun_files env expectedSha256 targetIdentity rt.toRuntime
        _ files intent
        (fun f hf => (hintent (runRestore rt.toRuntime env expectedSha256 targetIdentity) f hf).1)
      obtain ⟨heffect, hresult⟩ := hspeaks file hfile
      obtain ⟨hhonest, hread⟩ :=
        @runRestore_honest rt env expectedSha256 targetIdentity hrepr hsha
      rw [htarget]
      constructor
      · intro effect hrecords
        rw [heffect effect hrecords]
        exact hhonest
      · intro hname
        obtain ⟨s, hs⟩ := hresult hname
        exact (hread s hs).2

/-! ## §7. A restore of one tenant. -/

/-- A digest that loses nothing: two hexadecimal digits for each byte. -/
def hexText (bytes : List UInt8) : PyStr :=
  bytes.flatMap (fun b => [hexDigit (b.toNat / 16), hexDigit (b.toNat % 16)])

theorem hexText_injective : Function.Injective hexText := by
  intro a b h
  induction a generalizing b with
  | nil =>
    cases b with
    | nil => rfl
    | cons y ys => cases h
  | cons x xs ih =>
    cases b with
    | nil => cases h
    | cons y ys =>
      unfold hexText at h ih
      rw [List.flatMap_cons, List.flatMap_cons] at h
      simp only [List.cons_append, List.nil_append, List.cons.injEq] at h
      obtain ⟨hhigh, hlow, hrest⟩ := h
      have hx := x.toNat_lt
      have hy := y.toNat_lt
      have hhigh' := congrArg hexValue? hhigh
      have hlow' := congrArg hexValue? hlow
      rw [hexValue_hexDigit _ (by omega), hexValue_hexDigit _ (by omega),
        Option.some.injEq] at hhigh' hlow'
      rw [ih hrest, UInt8.toNat_inj.mp (by omega : x.toNat = y.toNat)]

def snapshotRuntime : Interpreter := { integerRuntime with sha256 := hexText }

theorem snapshotRuntime_repr : ReprRoundTrip snapshotRuntime := integerRuntime_repr

/-- A database of one tenant, whose timestamp was read with or without an offset. -/
def tenantDb (offset : Option Int) : Db :=
  { Db.empty with tenants := [⟨py "1", py "a", py "A", ⟨0, offset⟩⟩] }

theorem tenantDb_loaded (offset : Option Int) (t : TableName) :
    ∀ e ∈ (tenantDb offset).entries t, ∀ p ∈ e.columns, p.2.Loaded := by
  cases t with
  | tenants =>
    intro e he
    rw [List.mem_singleton.mp he]
    simp [Entry.columns, Cell.Loaded, strCell, Json.nodupKeys, Json.allStrings, joined_py]
  | stream k =>
    intro e he
    cases k <;> cases he
  | _ => exact fun e he => by cases he

/-- The catalog of a database of the expected schema. -/
def migratedCatalog (d : Dialect) : Catalog where
  dialect := d
  tableNames := py "alembic_version" :: sortedTables.map TableName.name
  viewNames := []
  columnNames := TableName.columnNames
  revisions := expectedRevisions
  integrityCheck := [py "ok"]
  foreignKeyViolation := false

def tenantConnection (d : Dialect) (offset : Option Int) : Connection where
  rows := tenantDb offset
  listed := (tenantDb offset).entries
  listed_perm _ := .refl _
  loaded := tenantDb_loaded offset
  catalog := migratedCatalog d
  identity := .ok (hexText (List.replicate 32 1))

def emptyTarget : Connection where
  rows := Db.empty
  listed := Db.empty.entries
  listed_perm _ := .refl _
  loaded t e he := by
    cases t with
    | stream k => cases k <;> cases he
    | _ => cases he
  catalog := migratedCatalog .postgresql
  identity := .ok (hexText (List.replicate 32 1))

/-- A restore of one tenant in which no step raises. -/
def tenantRestore : RestoreEnv where
  standalone := true
  snapshot := List.replicate 32 0
  openSnapshot _ := tenantConnection .sqlite none
  target := emptyTarget
  insert _ _ := .ok (tenantConnection .postgresql (some 0))
  commit := .returned
  reread := tenantConnection .postgresql (some 0)
  raises _ := none
  leaves _ := false
  className _ := py "Exception"
  observedAt := py "2026-01-01T00:00:00+00:00"
  toolSha256 := py "0"
  directoryFsync := py "MEASURED"

/-- The restore of the tenant records that it has committed, and its result. -/
theorem restore_effect_honest_tenant :
    ∃ file ∈ (restore snapshotRuntime.toRuntime tenantRestore (hexText (List.replicate 32 0))
        (hexText (List.replicate 32 1))).files,
      file.1 = py "result.json" ∧ Records file .committed ∧
        EffectHonest snapshotRuntime.toRuntime tenantRestore .committed
          (restore snapshotRuntime.toRuntime tenantRestore (hexText (List.replicate 32 0))
            (hexText (List.replicate 32 1))).target ∧
        ReadBack snapshotRuntime.toRuntime tenantRestore := by
  have hrun : (restore snapshotRuntime.toRuntime tenantRestore (hexText (List.replicate 32 0))
      (hexText (List.replicate 32 1))).files.any (fun f => f.1 == py "result.json" &&
        (Json.get f.2 (py "effect")).pyEq (.str (py "COMMITTED"))) = true := by decide +kernel
  obtain ⟨file, hfile, hboth⟩ := List.any_eq_true.mp hrun
  rw [Bool.and_eq_true, beq_iff_eq] at hboth
  have hrecords : Records file .committed := eq_str_of_pyEq hboth.2
  obtain ⟨hhonest, hread⟩ := restore_effect_honest snapshotRuntime snapshotRuntime_repr
    hexText_injective tenantRestore _ _ file hfile
  exact ⟨file, hfile, hboth.1, hrecords, hhonest _ hrecords, hread hboth.1⟩

end Lyte
