import Lyte.Persistence.Sealed

/-
  Lyte.Persistence.Invariant — the invariant of the store.

  `Effect rt d db ws` says what a commit of the store can do to the committed
  rows `db`: nothing, create a tenant, create a workspace with its heads, or
  extend some streams of one workspace at their heads (`Extends`), and any such
  effects one after the other.  `StoreInv` is what these effects preserve:

      StoreInv.effect   an effect on fresh keys keeps the invariant,

  and with it every chain, every link from a key record or a memory record to
  its receipt, and the version numbers of every operational entity.
-/

namespace Lyte

open Transact HashChain

variable (rt : Runtime)

/-! ## §1. Effects. -/

/-- **New rows that continue a stream at its head**, and the head behind them. -/
structure Extends (scope : Scope) (k : StreamKind) (head : StreamHeadRecord) (a : StreamAppend) :
    Prop where
  stream : ∀ r ∈ a.rows, r.stream = k
  chain : Chained rowLinks (Sealed rt scope k) head.lastSequence head.lastHash
    (a.rows.map Row.mixin)
  names : a.head.names scope.tenantId.text scope.workspaceId.text k.value = true
  tip : (a.head.lastSequence, a.head.lastHash)
    = tip rowLinks (head.lastSequence, head.lastHash) (a.rows.map Row.mixin)

/-- Two records of the same workspace. -/
def SameScope (a b : AppendOnlyMixin) : Prop :=
  a.tenantId = b.tenantId ∧ a.workspaceId = b.workspaceId

/-- What new rows refer to is there, or is written with them. -/
structure Linked (db : Db) (ws : List Write) : Prop where
  keyed : ∀ i, Write.addRow (.idempotency i) ∈ ws → ∃ r, Write.addRow (.receipt r) ∈ ws ∧
    SameScope r.toAppendOnlyMixin i.toAppendOnlyMixin ∧ r.recordHash = i.responseReceiptHash
  memory : ∀ m, Write.addRow (.memory m) ∈ ws → ∃ r,
    (r ∈ db.receipts ∨ Write.addRow (.receipt r) ∈ ws) ∧
    SameScope r.toAppendOnlyMixin m.toAppendOnlyMixin ∧ m.receiptHash = some r.recordHash
  versions : ∀ o, Write.addRow (.operational o) ∈ ws → o.version = 1 ∨ ∃ p ∈ db.operational,
    SameScope p.toAppendOnlyMixin o.toAppendOnlyMixin ∧ p.entityKind = o.entityKind ∧
    p.entityId = o.entityId ∧ o.version = p.version + 1

variable (d : Dialect)

/-- **What a commit can do** to the committed rows. -/
inductive Effect : Db → List Write → Prop
  | nothing {db} : Effect db []
  | tenant {db} (r : TenantRecord) : Effect db [.addTenant r]
  | workspace {db} {scope : Scope} {w : WorkspaceRecord} (clock : StreamKind → Instant) :
      w.tenantId = scope.tenantId.text → w.id = scope.workspaceId.text →
      Effect db (.addWorkspace w :: (initialHeads scope clock).map .addHead)
  | append {db} (scope : Scope) (appends : List (StreamKind × StreamAppend)) :
      HasWorkspace db scope →
      (∀ p ∈ appends, ∃ head, headOf db scope p.1 = some head ∧ Extends rt scope p.1 head p.2) →
      (appends.map Prod.fst).Nodup → Linked db (appendWrites (appends.map Prod.snd)) →
      Effect db (appendWrites (appends.map Prod.snd))
  | seq {db ws ws'} : Effect db ws → Effect ((engine d).commit db ws) ws' → Effect db (ws ++ ws')

/-! ## §2. The invariant. -/

/-- A stream is a chain, and its head is the tip. -/
structure ChainOk (db : Db) (scope : Scope) (k : StreamKind) : Prop where
  chain : Chained rowLinks (Sealed rt scope k) 0 none ((db.stream scope k).map Row.mixin)
  head : ∃ h, headOf db scope k = some h ∧
    (h.lastSequence, h.lastHash) = tip rowLinks (0, none) ((db.stream scope k).map Row.mixin)

/-- A workspace with these two ids exists. -/
def HasScope (db : Db) (tenantId workspaceId : PyStr) : Prop :=
  ∃ w ∈ db.workspaces, w.tenantId = tenantId ∧ w.id = workspaceId

structure StoreInv (db : Db) : Prop where
  chains : ∀ scope, HasWorkspace db scope → ∀ k, ChainOk rt db scope k
  inScope : ∀ k, ∀ r ∈ db.rows k, HasScope db r.mixin.tenantId r.mixin.workspaceId
  heads : ∀ h ∈ db.heads, HasScope db h.tenantId h.workspaceId ∧ ∃ k : StreamKind,
    h.streamKind = k.value
  unique : ∀ k, (db.rows k).Pairwise (fun a b => ∀ x ∈ a.keys, x ∉ b.keys)
  keyed : ∀ i ∈ db.idempotency, ∃ r ∈ db.receipts,
    SameScope r.toAppendOnlyMixin i.toAppendOnlyMixin ∧ r.recordHash = i.responseReceiptHash
  memory : ∀ m ∈ db.memory, ∃ r ∈ db.receipts,
    SameScope r.toAppendOnlyMixin m.toAppendOnlyMixin ∧ m.receiptHash = some r.recordHash
  versions : ∀ o ∈ db.operational, o.version = 1 ∨ ∃ p ∈ db.operational,
    SameScope p.toAppendOnlyMixin o.toAppendOnlyMixin ∧ p.entityKind = o.entityKind ∧
    p.entityId = o.entityId ∧ o.version = p.version + 1
  workspaceIds : (db.workspaces.map WorkspaceRecord.id).Nodup

theorem storeInv_empty : StoreInv rt Db.empty where
  chains := by rintro scope ⟨w, hw, _⟩; cases hw
  inScope := by intro k; cases k <;> simp [Db.rows, Db.empty]
  heads := by simp [Db.empty]
  unique := by intro k; cases k <;> simp [Db.rows, Db.empty]
  keyed := by simp [Db.empty]
  memory := by simp [Db.empty]
  versions := by simp [Db.empty]
  workspaceIds := by simp [Db.empty]

variable {rt d}

/-! ## §3. The rows of an append. -/

section Appends

variable {db : Db} {scope : Scope} {appends : List (StreamKind × StreamAppend)}

theorem mem_appendWrites {as : List StreamAppend} {r : Row} :
    Write.addRow r ∈ appendWrites as ↔ ∃ a ∈ as, r ∈ a.rows := by
  simp [appendWrites, StreamAppend.writes]

theorem addedRows_writes (a : StreamAppend) (k : StreamKind) :
    addedRows a.writes k = a.rows.filter (fun r => r.stream = k) := by
  have hrows : (a.rows.map Write.addRow).filterMap Write.row? = a.rows := by
    induction a.rows with
    | nil => rfl
    | cons r rs ih => simpa [Write.row?] using ih
  simp [StreamAppend.writes, addedRows, List.filterMap_append, hrows, Write.row?]

theorem addedRows_cons (p : StreamKind × StreamAppend) (ps : List (StreamKind × StreamAppend))
    (k : StreamKind) :
    addedRows (appendWrites ((p :: ps).map Prod.snd)) k
      = p.2.rows.filter (fun r => r.stream = k) ++ addedRows (appendWrites (ps.map Prod.snd)) k := by
  rw [← addedRows_writes, ← addedRows_append]
  rfl

/-- A stream that is not appended to gets no rows. -/
theorem addedRows_of_not_mem {k : StreamKind}
    (hs : ∀ p ∈ appends, ∀ r ∈ p.2.rows, r.stream = p.1) (hk : k ∉ appends.map Prod.fst) :
    addedRows (appendWrites (appends.map Prod.snd)) k = [] := by
  induction appends with
  | nil => rfl
  | cons p ps ih =>
    simp only [List.map_cons, List.mem_cons, not_or] at hk
    rw [addedRows_cons, ih (fun q hq => hs q (List.mem_cons_of_mem _ hq)) hk.2, List.append_nil,
      List.filter_eq_nil_iff]
    intro r hr
    rw [hs p List.mem_cons_self r hr]
    simpa using fun h => hk.1 h.symm

/-- A stream that is appended to gets the rows of its append. -/
theorem addedRows_of_mem {k : StreamKind} {a : StreamAppend}
    (hs : ∀ p ∈ appends, ∀ r ∈ p.2.rows, r.stream = p.1) (hnd : (appends.map Prod.fst).Nodup)
    (hm : (k, a) ∈ appends) : addedRows (appendWrites (appends.map Prod.snd)) k = a.rows := by
  induction appends with
  | nil => cases hm
  | cons p ps ih =>
    simp only [List.map_cons, List.nodup_cons] at hnd
    have htail : ∀ q ∈ ps, ∀ r ∈ q.2.rows, r.stream = q.1 :=
      fun q hq => hs q (List.mem_cons_of_mem _ hq)
    rw [addedRows_cons]
    rcases List.mem_cons.mp hm with rfl | hm
    · rw [addedRows_of_not_mem htail hnd.1, List.append_nil, List.filter_eq_self]
      intro r hr
      simpa using hs _ List.mem_cons_self r hr
    · have hne : p.1 ≠ k := fun h => hnd.1 (h ▸ List.mem_map.mpr ⟨_, hm, rfl⟩)
      have hnil : p.2.rows.filter (fun r => r.stream = k) = [] := by
        rw [List.filter_eq_nil_iff]
        intro r hr
        rw [hs p List.mem_cons_self r hr]
        simpa using hne
      rw [hnil, ih htail hnd.2 hm, List.nil_append]

/-- The UPDATEs of an append move the heads of its streams only. -/
theorem appendWrites_moves {t w k : PyStr} {x : Write}
    (hx : x ∈ appendWrites (appends.map Prod.snd)) (hm : x.moves t w k = true) :
    ∃ p ∈ appends, x = .updateHead p.2.head ∧ p.2.head.names t w k = true := by
  simp only [appendWrites, List.mem_flatMap, List.mem_map] at hx
  obtain ⟨a, ⟨p, hp, rfl⟩, hx⟩ := hx
  simp only [StreamAppend.writes, List.mem_append, List.mem_map, List.mem_singleton] at hx
  rcases hx with ⟨r, _, rfl⟩ | rfl
  · cases hm
  · exact ⟨p, hp, rfl, hm⟩

theorem stored_names (h : StreamHeadRecord) (s : Stamp) (t w k : PyStr) :
    ({ h with updatedAt := s } : StreamHeadRecord).names t w k = h.names t w k := rfl

/-- **The head behind an append.** -/
theorem headOf_append {k : StreamKind} {a : StreamAppend} {head : StreamHeadRecord}
    (hnd : (appends.map Prod.fst).Nodup)
    (hnames : ∀ p ∈ appends,
      p.2.head.names scope.tenantId.text scope.workspaceId.text p.1.value = true)
    (hm : (k, a) ∈ appends) (hh : headOf db scope k = some head) :
    headOf ((engine d).commit db (appendWrites (appends.map Prod.snd))) scope k
      = some { a.head with updatedAt := d.stamp a.head.updatedAt } := by
  obtain ⟨pre, post, rfl⟩ := List.append_of_mem hm
  -- only the UPDATE of `a` moves this head
  have hother : ∀ p ∈ pre ++ post,
      p.2.head.names scope.tenantId.text scope.workspaceId.text k.value = false := by
    intro p hp
    have hp' : p ∈ pre ++ (k, a) :: post := by
      rcases List.mem_append.mp hp with h | h
      · exact List.mem_append_left _ h
      · exact List.mem_append_right _ (List.mem_cons_of_mem _ h)
    have hne : p.1 ≠ k := by
      rintro rfl
      rw [List.map_append, List.map_cons, List.nodup_append] at hnd
      rcases List.mem_append.mp hp with h | h
      · exact hnd.2.2 p.1 (List.mem_map.mpr ⟨p, h, rfl⟩) p.1 List.mem_cons_self rfl
      · exact (List.nodup_cons.mp hnd.2.1).1 (List.mem_map.mpr ⟨p, h, rfl⟩)
    cases hn : p.2.head.names scope.tenantId.text scope.workspaceId.text k.value with
    | false => rfl
    | true =>
      have hp1 := hnames p hp'
      simp only [StreamHeadRecord.names, Bool.and_eq_true, beq_iff_eq] at hn hp1
      exact absurd (StreamKind.value_inj (hp1.2.symm.trans hn.2)) hne
  have hstill : ∀ l : List (StreamKind × StreamAppend), (∀ p ∈ l, p ∈ pre ++ post) →
      ∀ x ∈ appendWrites (l.map Prod.snd),
        x.moves scope.tenantId.text scope.workspaceId.text k.value = false := by
    intro l hl x hx
    cases hx' : x.moves scope.tenantId.text scope.workspaceId.text k.value with
    | false => rfl
    | true =>
      obtain ⟨p, hp, _, hn⟩ := appendWrites_moves hx hx'
      rw [hother p (hl p hp)] at hn
      cases hn
  have hsplit : appendWrites ((pre ++ (k, a) :: post).map Prod.snd)
      = (appendWrites (pre.map Prod.snd) ++ a.rows.map Write.addRow) ++
        (Write.updateHead a.head :: appendWrites (post.map Prod.snd)) := by
    simp [appendWrites, StreamAppend.writes]
  rw [hsplit, Engine.commit_append, Engine.commit_cons]
  refine head?_commit_of_not_moves ?_ (hstill post (fun p hp => List.mem_append_right _ hp))
  refine head?_updateHead (h := head) ?_ (hnames (k, a) hm)
  refine head?_commit_of_not_moves hh fun x hx => ?_
  rcases List.mem_append.mp hx with hx | hx
  · exact hstill pre (fun p hp => List.mem_append_left _ hp) x hx
  · obtain ⟨r, _, rfl⟩ := List.mem_map.mp hx
    rfl

/-- A head of another stream or workspace stays. -/
theorem headOf_append_other {t w k : PyStr} {head : StreamHeadRecord}
    (hn : ∀ p ∈ appends, p.2.head.names t w k = false) (hh : db.head? t w k = some head) :
    ((engine d).commit db (appendWrites (appends.map Prod.snd))).head? t w k = some head := by
  refine head?_commit_of_not_moves hh fun x hx => ?_
  cases hx' : x.moves t w k with
  | false => rfl
  | true =>
    obtain ⟨p, hp, _, hp'⟩ := appendWrites_moves hx hx'
    rw [hn p hp] at hp'
    cases hp'

end Appends

/-! ## §4. Preservation. -/

section Preservation

variable {db : Db} {ws : List Write}

theorem hasScope_grows {db db' : Db} {t w : PyStr} (h : HasScope db t w) (hg : Grows db db') :
    HasScope db' t w := by
  obtain ⟨x, hx, hs⟩ := h
  exact ⟨x, hg.workspaces.subset hx, hs⟩

theorem mem_row {k : StreamKind} {r : Row} (h : r ∈ db.rows k) : r.stream = k := by
  cases k <;> simp only [Db.rows, List.mem_map] at h <;> obtain ⟨x, _, rfl⟩ := h <;> rfl

theorem keys_of_row {k : StreamKind} {r : Row} {x : Key} (h : r ∈ db.rows k) (hx : x ∈ r.keys) :
    x ∈ db.keys :=
  List.mem_append_right _ (List.mem_flatMap.mpr
    ⟨k, mem_streamKinds k, List.mem_flatMap.mpr ⟨r, h, hx⟩⟩)

@[simp] theorem stored_keys (r : Row) : (r.stored d).keys = r.keys := by
  cases r <;> rfl

/-- New rows on fresh keys share no key with each other or with old rows. -/
theorem unique_commit (hf : index.Fresh db ws)
    (hu : ∀ k, (db.rows k).Pairwise (fun a b => ∀ x ∈ a.keys, x ∉ b.keys)) (k : StreamKind) :
    (((engine d).commit db ws).rows k).Pairwise (fun a b => ∀ x ∈ a.keys, x ∉ b.keys) := by
  rw [rows_commit, List.pairwise_append]
  refine ⟨hu k, ?_, ?_⟩
  · rw [List.pairwise_map, addedRows]
    refine List.Pairwise.filter _ ?_
    rw [List.pairwise_filterMap]
    refine hf.apart.imp fun {w w'} hww r hr r' hr' => ?_
    cases w <;> simp only [Write.row?, reduceCtorEq, Option.some.injEq] at hr
    cases w' <;> simp only [Write.row?, reduceCtorEq, Option.some.injEq] at hr'
    subst hr hr'
    simp only [stored_keys]
    exact hww
  · intro a ha b hb x hxa hxb
    obtain ⟨r, hr, rfl⟩ := List.mem_map.mp hb
    rw [stored_keys] at hxb
    refine hf.unused x ?_ (keys_of_row ha hxa)
    exact List.mem_flatMap.mpr ⟨_, (mem_addedRows.mp hr).1, hxb⟩

/-- The receipts after a commit. -/
theorem receipts_commit (db : Db) (ws : List Write) :
    (∀ r ∈ db.receipts, r ∈ ((engine d).commit db ws).receipts) ∧
    (∀ r, Write.addRow (.receipt r) ∈ ws →
      { r with createdAt := d.stamp r.createdAt } ∈ ((engine d).commit db ws).receipts) := by
  refine ⟨fun r hr => (commit_grows d db ws).receipts.subset hr, fun r hr => ?_⟩
  have hrow : Row.receipt { r with createdAt := d.stamp r.createdAt }
      ∈ ((engine d).commit db ws).rows .receipts := by
    rw [rows_commit]
    exact List.mem_append_right _ (List.mem_map.mpr ⟨_, mem_addedRows.mpr ⟨hr, rfl⟩, rfl⟩)
  obtain ⟨r', hr', he⟩ := List.mem_map.mp hrow
  cases he
  exact hr'

/-- A row of a table after a commit is an old one, or a stored new one. -/
theorem mem_rows_commit {k : StreamKind} {r : Row} (h : r ∈ ((engine d).commit db ws).rows k) :
    r ∈ db.rows k ∨ ∃ r', Write.addRow r' ∈ ws ∧ r'.stream = k ∧ r = r'.stored d := by
  rw [rows_commit] at h
  rcases List.mem_append.mp h with h | h
  · exact .inl h
  · obtain ⟨r', hr', rfl⟩ := List.mem_map.mp h
    obtain ⟨hw, hk⟩ := mem_addedRows.mp hr'
    exact .inr ⟨r', hw, hk, rfl⟩

theorem mem_operational_commit {o : OperationalRecord}
    (h : o ∈ ((engine d).commit db ws).operational) :
    o ∈ db.operational ∨ ∃ o', Write.addRow (.operational o') ∈ ws ∧
      o = { o' with createdAt := d.stamp o'.createdAt, observedAt := o'.observedAt.map d.stamp } := by
  have hr : Row.operational o ∈ ((engine d).commit db ws).rows .operational :=
    List.mem_map.mpr ⟨o, h, rfl⟩
  rcases mem_rows_commit hr with hr | ⟨r', hw, hk, he⟩
  · obtain ⟨o', ho', he⟩ := List.mem_map.mp hr
    cases he
    exact .inl ho'
  · cases r' <;> cases hk
    cases he
    exact .inr ⟨_, hw, rfl⟩

theorem mem_idempotency_commit {i : IdempotencyRecord}
    (h : i ∈ ((engine d).commit db ws).idempotency) :
    i ∈ db.idempotency ∨ ∃ i', Write.addRow (.idempotency i') ∈ ws ∧
      i = { i' with createdAt := d.stamp i'.createdAt } := by
  have hr : Row.idempotency i ∈ ((engine d).commit db ws).rows .idempotency :=
    List.mem_map.mpr ⟨i, h, rfl⟩
  rcases mem_rows_commit hr with hr | ⟨r', hw, hk, he⟩
  · obtain ⟨i', hi', he⟩ := List.mem_map.mp hr
    cases he
    exact .inl hi'
  · cases r' <;> cases hk
    cases he
    exact .inr ⟨_, hw, rfl⟩

theorem mem_memory_commit {m : MemoryRecord} (h : m ∈ ((engine d).commit db ws).memory) :
    m ∈ db.memory ∨ ∃ m', Write.addRow (.memory m') ∈ ws ∧
      m = { m' with createdAt := d.stamp m'.createdAt } := by
  have hr : Row.memory m ∈ ((engine d).commit db ws).rows .memory := List.mem_map.mpr ⟨m, h, rfl⟩
  rcases mem_rows_commit hr with hr | ⟨r', hw, hk, he⟩
  · obtain ⟨m', hm', he⟩ := List.mem_map.mp hr
    cases he
    exact .inl hm'
  · cases r' <;> cases hk
    cases he
    exact .inr ⟨_, hw, rfl⟩

/-- **Linked rows keep the store linked.** -/
theorem Linked.commit (hi : StoreInv rt db) (hl : Linked db ws) :
    (∀ i ∈ ((engine d).commit db ws).idempotency, ∃ r ∈ ((engine d).commit db ws).receipts,
      SameScope r.toAppendOnlyMixin i.toAppendOnlyMixin ∧ r.recordHash = i.responseReceiptHash) ∧
    (∀ m ∈ ((engine d).commit db ws).memory, ∃ r ∈ ((engine d).commit db ws).receipts,
      SameScope r.toAppendOnlyMixin m.toAppendOnlyMixin ∧ m.receiptHash = some r.recordHash) ∧
    (∀ o ∈ ((engine d).commit db ws).operational, o.version = 1 ∨
      ∃ p ∈ ((engine d).commit db ws).operational,
        SameScope p.toAppendOnlyMixin o.toAppendOnlyMixin ∧ p.entityKind = o.entityKind ∧
        p.entityId = o.entityId ∧ o.version = p.version + 1) := by
  have hg := commit_grows d db ws
  obtain ⟨hold, hnew⟩ := receipts_commit (d := d) db ws
  refine ⟨fun i hm => ?_, fun m hm => ?_, fun o hm => ?_⟩
  · rcases mem_idempotency_commit hm with hm | ⟨i', hw, rfl⟩
    · obtain ⟨r, hr, hs, he⟩ := hi.keyed i hm
      exact ⟨r, hold r hr, hs, he⟩
    · obtain ⟨r, hr, hs, he⟩ := hl.keyed i' hw
      exact ⟨_, hnew r hr, hs, he⟩
  · rcases mem_memory_commit hm with hm | ⟨m', hw, rfl⟩
    · obtain ⟨r, hr, hs, he⟩ := hi.memory m hm
      exact ⟨r, hold r hr, hs, he⟩
    · obtain ⟨r, hr | hr, hs, he⟩ := hl.memory m' hw
      · exact ⟨r, hold r hr, hs, he⟩
      · exact ⟨_, hnew r hr, hs, he⟩
  · rcases mem_operational_commit hm with hm | ⟨o', hw, rfl⟩
    · rcases hi.versions o hm with h | ⟨p, hp, hs⟩
      · exact .inl h
      · exact .inr ⟨p, hg.operational.subset hp, hs⟩
    · rcases hl.versions o' hw with h | ⟨p, hp, hs⟩
      · exact .inl h
      · exact .inr ⟨p, hg.operational.subset hp, hs⟩

theorem linked_of_no_rows (db : Db) (h : ∀ r, Write.addRow r ∉ ws) : Linked db ws where
  keyed _ hi := absurd hi (h _)
  memory _ hm := absurd hm (h _)
  versions _ ho := absurd ho (h _)

theorem addedRows_of_no_rows (h : ∀ r, Write.addRow r ∉ ws) (k : StreamKind) :
    addedRows ws k = [] := by
  refine List.eq_nil_iff_forall_not_mem.mpr fun r hr => ?_
  exact h r (mem_addedRows.mp hr).1

/-- Mixins of stored rows. -/
theorem map_mixin_stored (rows : List Row) :
    (rows.map (Row.stored d)).map Row.mixin = (rows.map Row.mixin).map (AppendOnlyMixin.stored d) := by
  simp [Function.comp_def]

theorem chained_stored {scope : Scope} {k : StreamKind} {n : Int} {p : Option PyStr}
    {ms : List AppendOnlyMixin} (h : Chained rowLinks (Sealed rt scope k) n p ms) :
    Chained rowLinks (Sealed rt scope k) n p (ms.map (AppendOnlyMixin.stored d)) :=
  chained_map (f := AppendOnlyMixin.stored d) (fun _ => rfl) (fun _ => rfl) (fun _ => rfl)
    (fun _ hm => hm.stored d) h

theorem tip_stored (start : Int × Option PyStr) (ms : List AppendOnlyMixin) :
    tip rowLinks start (ms.map (AppendOnlyMixin.stored d)) = tip rowLinks start ms :=
  tip_map (L := rowLinks) (f := AppendOnlyMixin.stored d) (fun _ => rfl) (fun _ => rfl) start ms

theorem scope_ext {a b : Scope} (ht : a.tenantId.text = b.tenantId.text)
    (hw : a.workspaceId.text = b.workspaceId.text) : a = b := by
  obtain ⟨⟨ta⟩, ⟨wa⟩⟩ := a
  obtain ⟨⟨tb⟩, ⟨wb⟩⟩ := b
  simp only at ht hw
  rw [ht, hw]

/-- **A stream goes on as a chain**, whatever is appended to it or to others. -/
theorem ChainOk.append {scope s : Scope} {k : StreamKind}
    {appends : List (StreamKind × StreamAppend)} (hc : ChainOk rt db s k)
    (hext : ∀ p ∈ appends, ∃ head, headOf db scope p.1 = some head ∧
      Extends rt scope p.1 head p.2)
    (hnd : (appends.map Prod.fst).Nodup) :
    ChainOk rt ((engine d).commit db (appendWrites (appends.map Prod.snd))) s k := by
  obtain ⟨hchain, h, hh, htip⟩ := hc
  have hstream : ∀ p ∈ appends, ∀ r ∈ p.2.rows, r.stream = p.1 := fun p hp => by
    obtain ⟨_, _, he⟩ := hext p hp
    exact he.stream
  have hnames : ∀ p ∈ appends,
      p.2.head.names scope.tenantId.text scope.workspaceId.text p.1.value = true := fun p hp => by
    obtain ⟨_, _, he⟩ := hext p hp
    exact he.names
  -- the rows that reach this stream
  have hother : (∀ r ∈ addedRows (appendWrites (appends.map Prod.snd)) k,
      r.mixin.inScope s = false) →
      ((engine d).commit db (appendWrites (appends.map Prod.snd))).stream s k = db.stream s k := by
    intro hno
    rw [stream_commit, List.filter_eq_nil_iff.mpr (by simpa using hno), List.map_nil,
      List.append_nil]
  by_cases hk : k ∈ appends.map Prod.fst
  · obtain ⟨⟨k', a⟩, hm, rfl⟩ := List.mem_map.mp hk
    simp only at hchain hh htip hother ⊢
    obtain ⟨head, hhead, he⟩ := hext _ hm
    have hrows := addedRows_of_mem hstream hnd hm
    have hsealed : ∀ r ∈ a.rows, Sealed rt scope k' r.mixin := fun r hr =>
      chained_forall he.chain _ (List.mem_map.mpr ⟨r, hr, rfl⟩)
    by_cases hsc : s = scope
    · subst hsc
      have hhead' : h = head := Option.some.inj (hh.symm.trans hhead)
      subst hhead'
      have hstr : ((engine d).commit db (appendWrites (appends.map Prod.snd))).stream s k'
          = db.stream s k' ++ a.rows.map (Row.stored d) := by
        rw [stream_commit, hrows, List.filter_eq_self.mpr fun r hr => (hsealed r hr).inScope]
      refine ⟨?_, _, headOf_append hnd hnames hm hh, ?_⟩
      · rw [hstr, List.map_append, map_mixin_stored, chained_append, ← htip]
        exact ⟨hchain, chained_stored he.chain⟩
      · rw [hstr, List.map_append, map_mixin_stored, tip_append, ← htip, tip_stored]
        exact he.tip
    · have hno : ∀ r ∈ addedRows (appendWrites (appends.map Prod.snd)) k',
          r.mixin.inScope s = false := by
        intro r hr
        rw [hrows] at hr
        rw [Bool.eq_false_iff]
        intro hin
        simp only [AppendOnlyMixin.inScope, Bool.and_eq_true, beq_iff_eq] at hin
        exact hsc (scope_ext (hin.1.symm.trans (hsealed r hr).tenant)
          (hin.2.symm.trans (hsealed r hr).workspace))
      refine ⟨by rw [hother hno]; exact hchain, h, ?_, by rw [hother hno]; exact htip⟩
      refine headOf_append_other (fun p hp => ?_) hh
      rw [Bool.eq_false_iff]
      intro hn
      have hn' := hnames p hp
      simp only [StreamHeadRecord.names, Bool.and_eq_true, beq_iff_eq] at hn hn'
      exact hsc (scope_ext (hn.1.1.symm.trans hn'.1.1) (hn.1.2.symm.trans hn'.1.2))
  · have hnil := addedRows_of_not_mem hstream hk
    have hno : ∀ r ∈ addedRows (appendWrites (appends.map Prod.snd)) k,
        r.mixin.inScope s = false := by simp [hnil]
    refine ⟨by rw [hother hno]; exact hchain, h, ?_, by rw [hother hno]; exact htip⟩
    refine headOf_append_other (fun p hp => ?_) hh
    rw [Bool.eq_false_iff]
    intro hn
    have hn' := hnames p hp
    simp only [StreamHeadRecord.names, Bool.and_eq_true, beq_iff_eq] at hn hn'
    have hkk : p.1 = k := StreamKind.value_inj (hn'.2.symm.trans hn.2)
    exact hk (hkk ▸ List.mem_map.mpr ⟨p, hp, rfl⟩)

/-- The statements that create a workspace append no rows and move no head. -/
theorem workspace_writes {w : WorkspaceRecord} {heads : List StreamHeadRecord} {x : Write}
    (hx : x ∈ Write.addWorkspace w :: heads.map .addHead) :
    x = .addWorkspace w ∨ ∃ h ∈ heads, x = .addHead h := by
  rcases List.mem_cons.mp hx with rfl | hx
  · exact .inl rfl
  · obtain ⟨h, hh, rfl⟩ := List.mem_map.mp hx
    exact .inr ⟨h, hh, rfl⟩

theorem heads_foldl_addHead (hs : List StreamHeadRecord) (db : Db) :
    ((hs.map Write.addHead).foldl Db.write db).heads = db.heads ++ hs := by
  induction hs generalizing db with
  | nil => simp
  | cons h hs ih =>
    rw [List.map_cons, List.foldl_cons, ih]
    simp [Db.write]

theorem workspaces_foldl_addHead (hs : List StreamHeadRecord) (db : Db) :
    ((hs.map Write.addHead).foldl Db.write db).workspaces = db.workspaces := by
  induction hs generalizing db with
  | nil => rfl
  | cons h hs ih => rw [List.map_cons, List.foldl_cons, ih]; rfl

theorem commit_workspace (db : Db) (w : WorkspaceRecord) (hs : List StreamHeadRecord) :
    ((engine d).commit db (.addWorkspace w :: hs.map .addHead)).workspaces
        = db.workspaces ++ [{ w with createdAt := d.stamp w.createdAt }] ∧
      ((engine d).commit db (.addWorkspace w :: hs.map .addHead)).heads
        = db.heads ++ hs.map (fun h => { h with updatedAt := d.stamp h.updatedAt }) := by
  have hmap : (hs.map Write.addHead).map (Write.stored d)
      = (hs.map (fun h => { h with updatedAt := d.stamp h.updatedAt })).map .addHead := by
    simp [Function.comp_def, Write.stored]
  simp only [Engine.commit, engine_write, engine_stored, List.map_cons, List.foldl_cons, hmap,
    heads_foldl_addHead, workspaces_foldl_addHead]
  exact ⟨rfl, rfl⟩

/-- No head with this key, no head of this name. -/
theorem head?_none {t w k : PyStr} (h : Key.head t w k ∉ db.keys) : db.head? t w k = none := by
  rw [head?_eq_find, List.find?_eq_none]
  intro x hx hn
  simp only [StreamHeadRecord.names, Bool.and_eq_true, beq_iff_eq] at hn
  refine h (List.mem_append_left _ (List.mem_append_right _ (List.mem_flatMap.mpr ⟨x, hx, ?_⟩)))
  simp [StreamHeadRecord.keys, hn.1.1, hn.1.2, hn.2]

/-- **The heads of a new workspace** stand at the start of empty streams. -/
theorem headOf_workspace {scope : Scope} {w : WorkspaceRecord} {clock : StreamKind → Instant}
    (hf : index.Fresh db (.addWorkspace w :: (initialHeads scope clock).map .addHead))
    (k : StreamKind) :
    ∃ h, headOf ((engine d).commit db
        (.addWorkspace w :: (initialHeads scope clock).map .addHead)) scope k = some h ∧
      h.lastSequence = 0 ∧ h.lastHash = none := by
  have hmem : ⟨scope.tenantId.text, scope.workspaceId.text, k.value, 0, none, (clock k).stamp⟩
      ∈ initialHeads scope clock := List.mem_map.mpr ⟨k, mem_streamKinds k, rfl⟩
  have hold : db.head? scope.tenantId.text scope.workspaceId.text k.value = none := by
    refine head?_none (hf.unused _ (List.mem_flatMap.mpr ⟨_, List.mem_cons_of_mem _
      (List.mem_map.mpr ⟨_, hmem, rfl⟩), ?_⟩))
    simp [Write.keys, StreamHeadRecord.keys]
  rw [head?_eq_find] at hold
  rw [headOf, head?_eq_find, (commit_workspace db w _).2, List.find?_append, hold, Option.none_or]
  refine ⟨⟨scope.tenantId.text, scope.workspaceId.text, k.value, 0, none,
    d.stamp (clock k).stamp⟩, ?_, rfl, rfl⟩
  cases k <;>
    simp [initialHeads, streamKinds, StreamHeadRecord.names, StreamKind.value]

theorem workspaceId_unused {w : WorkspaceRecord} {ws : List Write}
    (hf : index.Fresh db (.addWorkspace w :: ws)) : ∀ x ∈ db.workspaces, x.id ≠ w.id := by
  intro x hx he
  refine hf.unused (.workspaceId w.id) ?_ ?_
  · exact List.mem_flatMap.mpr ⟨_, List.mem_cons_self, by simp [Write.keys, WorkspaceRecord.keys]⟩
  · refine List.mem_append_left _ (List.mem_append_left _ (List.mem_append_right _
      (List.mem_flatMap.mpr ⟨x, hx, ?_⟩)))
    simp [WorkspaceRecord.keys, he]

/-- The statements that create a workspace leave every stream as it is. -/
theorem stream_workspace (db : Db) {scope s : Scope} {w : WorkspaceRecord}
    {clock : StreamKind → Instant} (k : StreamKind) :
    ((engine d).commit db (.addWorkspace w :: (initialHeads scope clock).map .addHead)).stream s k
      = db.stream s k := by
  have hno : ∀ r, Write.addRow r ∉
      Write.addWorkspace w :: (initialHeads scope clock).map Write.addHead := by
    intro r hr
    rcases workspace_writes hr with h | ⟨_, _, h⟩ <;> cases h
  rw [Db.stream, rows_commit, addedRows_of_no_rows hno, List.map_nil, List.append_nil, Db.stream]

/-- **A stream stays a chain** while another workspace is created. -/
theorem ChainOk.workspace {scope s : Scope} {k : StreamKind} {w : WorkspaceRecord}
    {clock : StreamKind → Instant} (hc : ChainOk rt db s k) :
    ChainOk rt ((engine d).commit db
      (.addWorkspace w :: (initialHeads scope clock).map .addHead)) s k := by
  obtain ⟨hchain, h, hh, htip⟩ := hc
  refine ⟨by rw [stream_workspace]; exact hchain, h, ?_, by rw [stream_workspace]; exact htip⟩
  refine head?_commit_of_not_moves hh fun x hx => ?_
  rcases workspace_writes hx with rfl | ⟨_, _, rfl⟩ <;> rfl

/-- A new workspace keeps the invariant. -/
theorem StoreInv.workspace {scope : Scope} {w : WorkspaceRecord} {clock : StreamKind → Instant}
    (hi : StoreInv rt db) (ht : w.tenantId = scope.tenantId.text)
    (hw : w.id = scope.workspaceId.text)
    (hf : index.Fresh db (.addWorkspace w :: (initialHeads scope clock).map .addHead)) :
    StoreInv rt ((engine d).commit db
      (.addWorkspace w :: (initialHeads scope clock).map .addHead)) := by
  have hno : ∀ r, Write.addRow r ∉
      Write.addWorkspace w :: (initialHeads scope clock).map Write.addHead := by
    intro r hr
    rcases workspace_writes hr with h | ⟨_, _, h⟩ <;> cases h
  have hg := commit_grows d db (.addWorkspace w :: (initialHeads scope clock).map .addHead)
  have hrows : ∀ k, ((engine d).commit db
      (.addWorkspace w :: (initialHeads scope clock).map .addHead)).rows k = db.rows k := by
    intro k
    rw [rows_commit, addedRows_of_no_rows hno, List.map_nil, List.append_nil]
  obtain ⟨hkeyed, hmemory, hversions⟩ := (linked_of_no_rows db hno).commit (d := d) hi
  have hunused := workspaceId_unused hf
  have hids : (((engine d).commit db (.addWorkspace w ::
      (initialHeads scope clock).map .addHead)).workspaces.map WorkspaceRecord.id).Nodup := by
    rw [(commit_workspace db w _).1, List.map_append, List.nodup_append]
    refine ⟨hi.workspaceIds, by simp, ?_⟩
    intro a ha b hb
    obtain ⟨x, hx, rfl⟩ := List.mem_map.mp ha
    obtain ⟨y, hy, rfl⟩ := List.mem_map.mp hb
    rw [List.mem_singleton.mp hy]
    exact hunused x hx
  refine ⟨?_, ?_, ?_, unique_commit hf hi.unique, hkeyed, hmemory, hversions, hids⟩
  · intro s hs k
    have hstr : ((engine d).commit db
        (.addWorkspace w :: (initialHeads scope clock).map .addHead)).stream s k
        = db.stream s k := stream_workspace db k
    by_cases hold : HasWorkspace db s
    · exact (hi.chains s hold k).workspace
    · -- it is the new workspace, and no row carries its id
      obtain ⟨x, hx, hxt, hxw⟩ := hs
      rw [(commit_workspace db w _).1] at hx
      have hsc : s = scope := by
        rcases List.mem_append.mp hx with hx | hx
        · exact absurd ⟨x, hx, hxt, hxw⟩ hold
        · rw [List.mem_singleton.mp hx] at hxt hxw
          exact scope_ext (hxt.symm.trans ht) (hxw.symm.trans hw)
      subst hsc
      have hnil : db.stream s k = [] := by
        rw [Db.stream, List.filter_eq_nil_iff]
        intro r hr hin
        simp only [AppendOnlyMixin.inScope, Bool.and_eq_true, beq_iff_eq] at hin
        obtain ⟨y, hy, _, hyw⟩ := hi.inScope k r hr
        exact hunused y hy (hyw.trans (hin.2.trans hw.symm))
      obtain ⟨h, hh, hseq, hhash⟩ := headOf_workspace (d := d) hf k
      refine ⟨by rw [hstr, hnil]; trivial, h, hh, ?_⟩
      rw [hstr, hnil, hseq, hhash]
      rfl
  · intro k r hr
    rw [hrows] at hr
    exact hasScope_grows (hi.inScope k r hr) hg
  · intro h hh
    rw [(commit_workspace db w _).2] at hh
    rcases List.mem_append.mp hh with hh | hh
    · exact ⟨hasScope_grows (hi.heads h hh).1 hg, (hi.heads h hh).2⟩
    · obtain ⟨h', hh', rfl⟩ := List.mem_map.mp hh
      obtain ⟨k, _, rfl⟩ := List.mem_map.mp hh'
      refine ⟨⟨{ w with createdAt := d.stamp w.createdAt }, ?_, ht, hw⟩, k, rfl⟩
      rw [(commit_workspace db w _).1]
      exact List.mem_append_right _ (List.mem_singleton.mpr rfl)

theorem heads_write_mem {x : Write} {h : StreamHeadRecord} (hh : h ∈ (db.write x).heads) :
    (∃ h' ∈ db.heads, h.tenantId = h'.tenantId ∧ h.workspaceId = h'.workspaceId ∧
      h.streamKind = h'.streamKind) ∨ x = .addHead h := by
  cases x with
  | addRow r => exact .inl ⟨h, by simpa using hh, rfl, rfl, rfl⟩
  | addTenant r => exact .inl ⟨h, hh, rfl, rfl, rfl⟩
  | addWorkspace r => exact .inl ⟨h, hh, rfl, rfl, rfl⟩
  | addHead h' =>
    rcases List.mem_append.mp hh with hh | hh
    · exact .inl ⟨h, hh, rfl, rfl, rfl⟩
    · rw [List.mem_singleton.mp hh]
      exact .inr rfl
  | updateHead h' =>
    obtain ⟨y, hy, rfl⟩ := List.mem_map.mp hh
    refine .inl ⟨y, hy, ?_⟩
    by_cases hs : y.sameKey h' = true
    · rw [if_pos hs]
      simp only [StreamHeadRecord.sameKey, Bool.and_eq_true, beq_iff_eq] at hs
      exact ⟨hs.1.1.symm, hs.1.2.symm, hs.2.symm⟩
    · rw [if_neg hs]
      exact ⟨rfl, rfl, rfl⟩

/-- Heads only come by INSERT. -/
theorem heads_commit_mem {ws : List Write} (hno : ∀ h, Write.addHead h ∉ ws)
    {h : StreamHeadRecord} (hh : h ∈ ((engine d).commit db ws).heads) :
    ∃ h' ∈ db.heads, h.tenantId = h'.tenantId ∧ h.workspaceId = h'.workspaceId ∧
      h.streamKind = h'.streamKind := by
  induction ws generalizing db with
  | nil => exact ⟨h, hh, rfl, rfl, rfl⟩
  | cons x ws ih =>
    rw [Engine.commit_cons] at hh
    obtain ⟨h₁, hh₁, ht, hw, hk⟩ := ih (fun y hy => hno y (List.mem_cons_of_mem _ hy)) hh
    rcases heads_write_mem hh₁ with ⟨h₂, hh₂, ht', hw', hk'⟩ | hx
    · exact ⟨h₂, hh₂, ht.trans ht', hw.trans hw', hk.trans hk'⟩
    · cases x with
      | addHead h' => exact absurd List.mem_cons_self (hno h')
      | _ => cases hx

/-- Workspaces only come by INSERT. -/
theorem workspaces_commit {ws : List Write} (hno : ∀ x ∈ ws, ∀ w, x ≠ .addWorkspace w) :
    ((engine d).commit db ws).workspaces = db.workspaces := by
  induction ws generalizing db with
  | nil => rfl
  | cons x ws ih =>
    rw [Engine.commit_cons, ih (fun y hy => hno y (List.mem_cons_of_mem _ hy))]
    cases x with
    | addRow r => simp [Write.stored]
    | addWorkspace w => exact absurd rfl (hno _ List.mem_cons_self w)
    | _ => rfl

/-- An append keeps the invariant. -/
theorem StoreInv.append {scope : Scope} {appends : List (StreamKind × StreamAppend)}
    (hi : StoreInv rt db) (hws : HasWorkspace db scope)
    (hext : ∀ p ∈ appends, ∃ head, headOf db scope p.1 = some head ∧
      Extends rt scope p.1 head p.2)
    (hnd : (appends.map Prod.fst).Nodup) (hl : Linked db (appendWrites (appends.map Prod.snd)))
    (hf : index.Fresh db (appendWrites (appends.map Prod.snd))) :
    StoreInv rt ((engine d).commit db (appendWrites (appends.map Prod.snd))) := by
  have hg := commit_grows d db (appendWrites (appends.map Prod.snd))
  obtain ⟨hkeyed, hmemory, hversions⟩ := hl.commit (d := d) hi
  have hkinds : ∀ x ∈ appendWrites (appends.map Prod.snd), ∀ w, x ≠ .addWorkspace w := by
    rintro x hx w rfl
    simp [appendWrites, StreamAppend.writes] at hx
  have hheads : ∀ h, Write.addHead h ∉ appendWrites (appends.map Prod.snd) := by
    intro h hx
    simp [appendWrites, StreamAppend.writes] at hx
  have hsame : ((engine d).commit db (appendWrites (appends.map Prod.snd))).workspaces
      = db.workspaces := workspaces_commit hkinds
  have hwsEq : ∀ s, HasWorkspace ((engine d).commit db (appendWrites (appends.map Prod.snd))) s →
      HasWorkspace db s := by
    intro s hs
    rwa [HasWorkspace, hsame] at hs
  refine ⟨fun s hs k => (hi.chains s (hwsEq s hs) k).append hext hnd, ?_, ?_,
    unique_commit hf hi.unique, hkeyed, hmemory, hversions, by rw [hsame]; exact hi.workspaceIds⟩
  · intro k r hr
    rcases mem_rows_commit hr with hr | ⟨r', hw, hk, rfl⟩
    · exact hasScope_grows (hi.inScope k r hr) hg
    · obtain ⟨a, ha, hra⟩ := mem_appendWrites.mp hw
      obtain ⟨p, hp, rfl⟩ := List.mem_map.mp ha
      obtain ⟨_, _, he⟩ := hext p hp
      have hs := chained_forall he.chain _ (List.mem_map.mpr ⟨r', hra, rfl⟩)
      obtain ⟨w, hww, hwt, hwi⟩ := hws.grows hg
      refine ⟨w, hww, ?_, ?_⟩
      · rw [hwt, Row.stored_mixin]
        exact hs.tenant.symm
      · rw [hwi, Row.stored_mixin]
        exact hs.workspace.symm
  · intro h hh
    obtain ⟨h', hh', ht, hw, hk⟩ := heads_commit_mem hheads hh
    rw [ht, hw, hk]
    exact ⟨hasScope_grows (hi.heads h' hh').1 hg, (hi.heads h' hh').2⟩

/-- The keys of two groups of rows are fresh one after the other. -/
theorem fresh_split (ws : List Write) {ws' : List Write} (hf : index.Fresh db (ws ++ ws')) :
    index.Fresh db ws ∧ index.Fresh ((engine d).commit db ws) ws' := by
  have hk : index.keysOf (ws ++ ws') = index.keysOf ws ++ index.keysOf ws' := by
    simp [Index.keysOf]
  have hap := List.pairwise_append.mp hf.apart
  refine ⟨⟨fun k hk' => hf.unused k (by rw [hk]; exact List.mem_append_left _ hk'), hap.1⟩,
    ⟨fun k hk' hu => ?_, hap.2.1⟩⟩
  rcases (used_commit (index_lawful d) ws db k).mp hu with hu | hu
  · exact hf.unused k (by rw [hk]; exact List.mem_append_right _ hk') hu
  · obtain ⟨w, hw, hkw⟩ := List.mem_flatMap.mp hu
    obtain ⟨w', hw', hkw'⟩ := List.mem_flatMap.mp hk'
    exact hap.2.2 w hw w' hw' k hkw hkw'

/-- **An effect on fresh keys keeps the invariant.** -/
theorem StoreInv.effect (he : Effect rt d db ws) (hf : index.Fresh db ws) (hi : StoreInv rt db) :
    StoreInv rt ((engine d).commit db ws) := by
  induction he with
  | nothing => exact hi
  | @tenant db r =>
    have hno : ∀ x, Write.addRow x ∉ [Write.addTenant r] := by simp
    obtain ⟨hkeyed, hmemory, hversions⟩ := (linked_of_no_rows db hno).commit (d := d) hi
    exact ⟨fun s hs k => ⟨(hi.chains s hs k).chain, (hi.chains s hs k).head⟩, hi.inScope, hi.heads,
      hi.unique, hkeyed, hmemory, hversions, hi.workspaceIds⟩
  | workspace clock ht hw => exact hi.workspace ht hw hf
  | append _ _ hws hext hnd hl => exact hi.append hws hext hnd hl hf
  | seq _ _ ih ih' =>
    obtain ⟨h₁, h₂⟩ := fresh_split (d := d) _ hf
    rw [Engine.commit_append]
    exact ih' h₂ (ih h₁ hi)

end Preservation

end Lyte
