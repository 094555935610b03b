import Lyte.Connectors.GithubActions

/-
  Lyte.Connectors.GithubPagination — what a listing of runs says of its pages.

  The loop carries a census of the pages that it read: their runs, distinct and
  in the order of the pages, and the one total that all of them announced.

      fetchLoop_spec         what the loop knows where it ends
      Census.flawless        pages that were read have no flaw
      pagination_honest      what a result says of the pages that were fetched
-/

namespace Lyte

open Transact

/-! ## §1. Runs that are read. -/

section Runs

variable {rt : Interpreter}

/-- The three times of a run, in order; `isoText` tells different instants apart. -/
def GitHubWorkflowRun.Ordered (run : GitHubWorkflowRun) : Prop :=
  ∃ created started updated : Instant, created.micros ≤ started.micros ∧
    started.micros ≤ updated.micros ∧ run.createdAt = isoText created.micros ∧
    run.runStartedAt = isoText started.micros ∧ run.updatedAt = isoText updated.micros

/-- Items and the runs that they are. -/
def Parsed (rt : Interpreter) (items : List Json) (runs : List GitHubWorkflowRun) : Prop :=
  List.Forall₂ (fun item run => parseRun rt item = .ok run) items runs

/-- No two runs have one id. -/
def DistinctRuns (runs : List GitHubWorkflowRun) : Prop :=
  (runs.map GitHubWorkflowRun.runId).Nodup

theorem parseRunTime_ok {value : Json} {field : PyStr} {t : Stamp}
    (h : parseRunTime rt value field = .ok t) : t.offset.isSome = true := by
  unfold parseRunTime at h
  cases value with
  | str raw =>
    simp only at h
    split at h
    · cases h
    · split at h
      · split at h
        · cases h
        · cases h
      · split at h
        · cases h
        · next hoffset =>
          cases h
          rw [Option.isSome_iff_ne_none]
          intro hnone
          rw [hnone] at hoffset
          exact hoffset rfl
  | _ => cases h

theorem runStarted_ok {fields : List (PyStr × Json)} {created t : Stamp}
    (h : runStarted rt fields created = .ok t) (hc : created.offset.isSome = true) :
    t.offset.isSome = true := by
  unfold runStarted at h
  split at h
  · cases h
    exact hc
  · cases h
    exact hc
  · exact parseRunTime_ok h

/-- What the checks of a run leave: times with offsets, in order. -/
theorem checkRun_ok {value : Json} {c : CheckedRun} (h : checkRun rt value = .ok c) :
    c.created.offset.isSome = true ∧ c.started.offset.isSome = true ∧
      c.updated.offset.isSome = true ∧ c.created.instant ≤ c.started.instant ∧
      c.started.instant ≤ c.updated.instant := by
  unfold checkRun at h
  split at h
  · split at h
    · cases h
    · split at h
      · split at h
        · cases h
        · obtain ⟨_, _, h⟩ := ok_of_bind h
          obtain ⟨_, _, h⟩ := ok_of_bind h
          obtain ⟨_, _, h⟩ := ok_of_bind h
          obtain ⟨_, _, h⟩ := ok_of_bind h
          obtain ⟨_, _, h⟩ := ok_of_bind h
          simp only at h
          split at h
          · cases h
          · obtain ⟨_, _, h⟩ := ok_of_bind h
            obtain ⟨created, hcreated, h⟩ := ok_of_bind h
            obtain ⟨started, hstarted, h⟩ := ok_of_bind h
            obtain ⟨updated, hupdated, h⟩ := ok_of_bind h
            split at h
            · cases h
            · next hordered =>
              cases h
              have hc := parseRunTime_ok hcreated
              refine ⟨hc, runStarted_ok hstarted hc, parseRunTime_ok hupdated, ?_, ?_⟩
              · show created.instant ≤ started.instant
                omega
              · show started.instant ≤ updated.instant
                omega
      · cases h
  · cases h

/-- Text that `isoformat_z` writes is that of the instant. -/
theorem isoformatZ_ok {s : Stamp} {text : PyStr} (h : isoformatZ s = .ok text) :
    ∃ t : Instant, t.micros = s.instant ∧ text = isoText t.micros := by
  unfold isoformatZ at h
  split at h
  · cases h
  · next o ho =>
    split at h
    · next hrange =>
      cases h
      refine ⟨⟨s.wall - o, hrange.1, hrange.2⟩, ?_, rfl⟩
      unfold Stamp.instant
      rw [ho]
      rfl
    · cases h

/-- **A run that is read has its times in order.** -/
theorem parseRun_ordered {value : Json} {run : GitHubWorkflowRun}
    (h : parseRun rt value = .ok run) : run.Ordered := by
  obtain ⟨c, hc, h⟩ := ok_of_bind h
  obtain ⟨_, _, _, hle, hle'⟩ := checkRun_ok hc
  obtain ⟨createdAt, hcreated, h⟩ := ok_of_bind h
  obtain ⟨startedAt, hstarted, h⟩ := ok_of_bind h
  obtain ⟨updatedAt, hupdated, h⟩ := ok_of_bind h
  cases h
  obtain ⟨created, hci, rfl⟩ := isoformatZ_ok hcreated
  obtain ⟨started, hsi, rfl⟩ := isoformatZ_ok hstarted
  obtain ⟨updated, hui, rfl⟩ := isoformatZ_ok hupdated
  exact ⟨created, started, updated, by omega, by omega, rfl, rfl, rfl⟩

theorem distinct_snoc {runs : List GitHubWorkflowRun} {run : GitHubWorkflowRun}
    (h : DistinctRuns runs) (hnew : runs.any (fun x => x.runId == run.runId) = false) :
    DistinctRuns (runs ++ [run]) := by
  unfold DistinctRuns
  rw [List.map_append, List.nodup_append]
  refine ⟨h, by simp, ?_⟩
  intro a ha b hb hab
  rw [List.mem_singleton.mp hb] at hab
  obtain ⟨x, hx, rfl⟩ := List.mem_map.mp ha
  have hne := List.any_eq_false.mp hnew x hx
  exact hne (beq_iff_eq.mpr hab)

/-- The runs of a page, behind those of the pages before it. -/
theorem addRuns_ok {items : List Json} {runs runs' : List GitHubWorkflowRun}
    (h : addRuns rt items runs = .ok runs') : ∃ new, runs' = runs ++ new ∧ Parsed rt items new ∧
      (DistinctRuns runs → DistinctRuns runs') := by
  induction items generalizing runs with
  | nil =>
    cases h
    exact ⟨[], (List.append_nil _).symm, .nil, id⟩
  | cons item items ih =>
    unfold addRuns at h
    obtain ⟨run, hrun, h⟩ := ok_of_bind h
    simp only at h
    split at h
    · cases h
    · next hnew =>
      obtain ⟨new, hnew', hparsed, hdistinct⟩ := ih h
      refine ⟨run :: new, ?_, .cons hrun hparsed, ?_⟩
      · rw [hnew', List.append_assoc]
        rfl
      · intro hd
        exact hdistinct (distinct_snoc hd (Bool.eq_false_iff.mpr hnew))

end Runs

/-! ## §2. Pages that are read. -/

section Pages

variable (rt : Interpreter) (intOfText : PyStr → Option Int) (limits : GitHubActionsLimits)
variable (pages : Nat → PageOutcome)

/-- The page answers with these items and this total. -/
def Holds (p : Nat) (items : List Json) (total : Int) : Prop :=
  ∃ r, pages p = .response r ∧ r.status = 200 ∧
    contentOf rt intOfText limits r = .ok (items, total)

/-- The first pages, all of one total. -/
def FirstPages (contents : List (List Json)) (total : Int) : Prop :=
  ∀ i items, contents[i]? = some items → Holds rt intOfText limits pages (i + 1) items total

/-- What the loop has, behind pages with these contents. -/
structure Census (contents : List (List Json)) (state : FetchState) : Prop where
  started : state.totalCount = none ↔ contents = []
  pages : ∀ total, state.totalCount = some total →
    FirstPages rt intOfText limits pages contents total
  parsed : Parsed rt contents.flatten state.runs
  distinct : DistinctRuns state.runs
  bounded : ∀ total, state.totalCount = some total → (state.runs.length : Int) ≤ total
  short : ∀ items ∈ contents, items.length ≤ limits.perPage

variable {rt intOfText limits pages}

theorem Holds.unique {p : Nat} {items items' : List Json} {total total' : Int}
    (h : Holds rt intOfText limits pages p items total)
    (h' : Holds rt intOfText limits pages p items' total') : items = items' ∧ total = total' := by
  obtain ⟨r, hp, _, hc⟩ := h
  obtain ⟨r', hp', _, hc'⟩ := h'
  rw [hp] at hp'
  cases hp'
  rw [hc] at hc'
  cases hc'
  exact ⟨rfl, rfl⟩

theorem pageContent_short {decoded : Json} {items : List Json} {total : Int}
    (h : pageContent limits decoded = .ok (items, total)) : items.length ≤ limits.perPage := by
  unfold pageContent at h
  split at h
  · split at h
    · split at h
      · cases h
      · split at h
        · cases h
        · cases h
          omega
    · cases h
  · cases h

theorem contentOf_short {r : GitHubResponse} {items : List Json} {total : Int}
    (h : contentOf rt intOfText limits r = .ok (items, total)) :
    items.length ≤ limits.perPage := by
  unfold contentOf at h
  split at h
  · cases h
  · split at h
    · cases h
    · split at h
      · cases h
      · exact pageContent_short h

/-- A page that belongs to the others has their total, and fits in it. -/
theorem addPage_ok {etag : Option HeaderText} {state state' : FetchState} {items : List Json}
    {count : Int} (h : addPage rt etag state items count = .ok state') :
    (∀ total, state.totalCount = some total → total = count) ∧
      (state.runs.length + items.length : Int) ≤ count ∧
      addRuns rt items state.runs = .ok state'.runs ∧ state'.totalCount = some count := by
  unfold addPage at h
  split at h
  · cases h
  · next htotal =>
    split at h
    · cases h
    · next hfits =>
      obtain ⟨runs, hruns, h⟩ := ok_of_bind h
      cases h
      refine ⟨?_, by omega, hruns, rfl⟩
      intro total hsome
      rw [hsome, Option.any_some] at htotal
      simpa using htotal

/-- What a page is that the loop reads. -/
theorem fetchPage_read {page : Nat} {r : GitHubResponse} {state state' : FetchState} {last : Bool}
    (h : fetchPage rt intOfText limits page r state = .read state' last) :
    r.status = 200 ∧ ∃ items count, contentOf rt intOfText limits r = .ok (items, count) ∧
      addPage rt r.etag state items count = .ok state' ∧
      last = decide (items.length < limits.perPage ∨ (state'.runs.length : Int) = count) := by
  unfold fetchPage at h
  split at h
  · cases h
  · split at h
    · cases h
    · split at h
      · cases h
      · next hstatus =>
        refine ⟨not_not.mp hstatus, ?_⟩
        split at h
        · cases h
        · next items count hcontent =>
          split at h
          · cases h
          · next hadd =>
            cases h
            exact ⟨items, count, hcontent, hadd, rfl⟩

/-- **One page more.** -/
theorem Census.step {contents : List (List Json)} {state state' : FetchState}
    (hc : Census rt intOfText limits pages contents state) {r : GitHubResponse} {last : Bool}
    (hpage : pages (contents.length + 1) = .response r)
    (h : fetchPage rt intOfText limits (contents.length + 1) r state = .read state' last) :
    ∃ items, Census rt intOfText limits pages (contents ++ [items]) state' ∧
      (last = false → items.length = limits.perPage ∧
        state'.totalCount ≠ some (state'.runs.length : Int)) := by
  obtain ⟨hstatus, items, count, hcontent, hadd, hlast⟩ := fetchPage_read h
  obtain ⟨htotal, hfits, hruns, hcount⟩ := addPage_ok hadd
  obtain ⟨new, hnew, hparsed, hdistinct⟩ := addRuns_ok hruns
  have hlength : new.length = items.length := hparsed.length_eq.symm
  have hshort := contentOf_short hcontent
  refine ⟨items, ⟨?_, ?_, ?_, hdistinct hc.distinct, ?_, ?_⟩, ?_⟩
  · rw [hcount]
    exact iff_of_false (fun h => by cases h) (fun h => List.append_ne_nil_of_right_ne_nil _
      (List.cons_ne_nil _ _) h)
  · intro total hsome
    rw [hcount] at hsome
    cases hsome
    intro i items' hi
    rw [List.getElem?_append] at hi
    split at hi
    · next hlt =>
      cases htc : state.totalCount with
      | none =>
        rw [hc.started.mp htc] at hlt
        cases hlt
      | some total =>
        rw [← htotal total htc]
        exact hc.pages total htc i items' hi
    · next hge =>
      have hzero : i - contents.length = 0 := by
        by_contra hne
        rw [List.getElem?_eq_none (by simp only [List.length_singleton]; omega)] at hi
        cases hi
      rw [hzero] at hi
      cases hi
      have hi' : i = contents.length := by omega
      rw [hi']
      exact ⟨r, hpage, hstatus, hcontent⟩
  · rw [List.flatten_append, hnew]
    have hone : [items].flatten = items := by simp
    rw [hone]
    exact List.rel_append hc.parsed hparsed
  · intro total hsome
    rw [hcount] at hsome
    cases hsome
    rw [hnew, List.length_append, hlength]
    push_cast
    exact hfits
  · intro items' hmem
    rcases List.mem_append.mp hmem with hmem | hmem
    · exact hc.short items' hmem
    · rw [List.mem_singleton.mp hmem]
      exact hshort
  · intro hfalse
    rw [hfalse] at hlast
    have hnot := of_decide_eq_false hlast.symm
    rw [not_or] at hnot
    refine ⟨by omega, ?_⟩
    rw [hcount]
    intro heq
    cases heq
    exact hnot.2 rfl

/-- What is known of the loop behind `done` pages, with `n` left, where it ends. -/
structure LoopFacts (rt : Interpreter) (intOfText : PyStr → Option Int)
    (limits : GitHubActionsLimits) (pages : Nat → PageOutcome) (done n : Nat) (run : LoopRun) :
    Prop where
  requests : run.requests ≤ done + n
  fetched : run.pagesFetched ≤ run.requests
  finished : ∀ state, run.ending = .finished state → ∃ contents,
    contents.length = run.pagesFetched ∧ contents.length ≤ done + n ∧
      (0 < done + n → contents ≠ []) ∧ Census rt intOfText limits pages contents state
  notModified : ∀ etag, run.ending = .notModified etag → run.pagesFetched = 1 ∧
    ∃ r, pages 1 = .response r ∧ r.status = 304

/-- A page at which the loop stops. -/
theorem LoopFacts.stopped {done n fetched : Nat} {ending : LoopEnd} (hle : fetched ≤ done + 1)
    (hfinished : ∀ state, ending ≠ .finished state)
    (hnotModified : ∀ etag, ending ≠ .notModified etag) :
    LoopFacts rt intOfText limits pages done (n + 1) ⟨done + 1, fetched, ending⟩ where
  requests := by
    show done + 1 ≤ done + (n + 1)
    omega
  fetched := hle
  finished state h := absurd h (hfinished state)
  notModified etag h := absurd h (hnotModified etag)

end Pages

/-! ## §3. Pagination is honest. -/

section Honest

variable (rt : Interpreter) (intOfText : PyStr → Option Int) (limits : GitHubActionsLimits)
variable (pages : Nat → PageOutcome)

/-- What may be wrong with the pages that were fetched. -/
inductive Flaw (fetched : Nat) : Prop
  | status {p r} : 1 ≤ p → p ≤ fetched → pages p = .response r → r.status ≠ 200 →
      ¬ (r.status = 304 ∧ p = 1) → Flaw fetched
  | malformed {p r stop} : 1 ≤ p → p ≤ fetched → pages p = .response r → r.status = 200 →
      contentOf rt intOfText limits r = .error stop → Flaw fetched
  | run {p items total item e} : 1 ≤ p → p ≤ fetched →
      Holds rt intOfText limits pages p items total → item ∈ items →
      parseRun rt item = .error e → Flaw fetched
  | total {p q items items' t t'} : 1 ≤ p → p ≤ fetched → 1 ≤ q → q ≤ fetched →
      Holds rt intOfText limits pages p items t → Holds rt intOfText limits pages q items' t' →
      t ≠ t' → Flaw fetched
  | repeated {contents total runs} : contents.length ≤ fetched →
      FirstPages rt intOfText limits pages contents total → Parsed rt contents.flatten runs →
      ¬ DistinctRuns runs → Flaw fetched
  | surplus {contents total} : contents ≠ [] → contents.length ≤ fetched →
      FirstPages rt intOfText limits pages contents total →
      total < (contents.flatten.length : Int) → Flaw fetched

/-- The runs of the fetched pages, all of one total. -/
def FetchedRuns (result : GitHubActionsResult) (total : Int) : Prop :=
  ∃ contents, contents ≠ [] ∧ contents.length = result.pagesFetched ∧
    FirstPages rt intOfText limits pages contents total ∧
    Parsed rt contents.flatten result.runs ∧ DistinctRuns result.runs

/-- What a result says of the pages that were fetched. -/
structure PaginationHonest (run : LoopRun) (result : GitHubActionsResult) : Prop where
  requests : run.requests ≤ limits.maxPages
  observed : result.state = .observed → ∃ total,
    FetchedRuns rt intOfText limits pages result total ∧ (result.runs.length : Int) = total
  observedPartial : result.state = .observedPartial → ∃ total,
    FetchedRuns rt intOfText limits pages result total ∧ (result.runs.length : Int) < total
  flawed : Flaw rt intOfText limits pages result.pagesFetched → result.state = .unavailable
  unmodified : 1 ≤ result.pagesFetched → ∀ r, pages 1 = .response r → r.status = 304 →
    result.state = .notModified
  noRuns : result.state = .unavailable ∨ result.state = .notModified → result.runs = []
  ordered : ∀ x ∈ result.runs, x.Ordered

variable {rt intOfText limits pages}

/-- Pages that were read are what the first pages are. -/
theorem FirstPages.begins {contents contents' : List (List Json)} {total total' : Int}
    (h : FirstPages rt intOfText limits pages contents total)
    (h' : FirstPages rt intOfText limits pages contents' total')
    (hle : contents'.length ≤ contents.length) : contents' <+: contents := by
  rw [List.prefix_iff_eq_take]
  apply List.ext_getElem?
  intro i
  rw [List.getElem?_take]
  by_cases hi : i < contents'.length
  · rw [if_pos hi]
    have hi' : i < contents.length := by omega
    obtain ⟨heq, _⟩ := (h i contents[i] (List.getElem?_eq_getElem hi')).unique
      (h' i contents'[i] (List.getElem?_eq_getElem hi))
    rw [List.getElem?_eq_getElem hi, List.getElem?_eq_getElem hi', heq]
  · rw [if_neg hi]
    exact List.getElem?_eq_none (by omega)

/-- The runs of a part of the items are a part of the runs. -/
theorem Parsed.begins {items items' : List Json} {runs runs' : List GitHubWorkflowRun}
    (h : Parsed rt items runs) (h' : Parsed rt items' runs') (hp : items' <+: items) :
    runs' <+: runs := by
  obtain ⟨rest, rfl⟩ := hp
  induction h' generalizing runs with
  | nil => exact List.nil_prefix
  | @cons item run items' runs' hrun _ ih =>
    cases h with
    | @cons _ run₂ _ runs₂ hrun₂ hrest =>
      rw [hrun] at hrun₂
      cases hrun₂
      exact (List.prefix_cons_inj run).mpr (ih hrest)

theorem Parsed.all {items : List Json} {runs : List GitHubWorkflowRun}
    (h : Parsed rt items runs) :
    (∀ x ∈ runs, x.Ordered) ∧ ∀ item ∈ items, ∃ run, parseRun rt item = .ok run := by
  induction h with
  | nil =>
    refine ⟨fun _ hx => ?_, fun _ hx => ?_⟩
    · cases hx
    · cases hx
  | cons hrun _ ih =>
    constructor
    · intro x hx
      rcases List.mem_cons.mp hx with rfl | hx
      · exact parseRun_ordered hrun
      · exact ih.1 x hx
    · intro item hitem
      rcases List.mem_cons.mp hitem with rfl | hitem
      · exact ⟨_, hrun⟩
      · exact ih.2 item hitem

/-- The total of pages that were read. -/
theorem Census.total {contents : List (List Json)} {state : FetchState}
    (hc : Census rt intOfText limits pages contents state) (hne : contents ≠ []) :
    ∃ total, state.totalCount = some total ∧
      FirstPages rt intOfText limits pages contents total ∧
      (state.runs.length : Int) ≤ total := by
  cases htotal : state.totalCount with
  | none => exact absurd (hc.started.mp htotal) hne
  | some total => exact ⟨total, rfl, hc.pages total htotal, hc.bounded total htotal⟩

/-- **Pages that were read have no flaw.** -/
theorem Census.flawless {contents : List (List Json)} {state : FetchState}
    (hc : Census rt intOfText limits pages contents state) (hne : contents ≠ []) :
    ¬ Flaw rt intOfText limits pages contents.length := by
  obtain ⟨total, _, hpages, hbounded⟩ := hc.total hne
  have hholds : ∀ p, 1 ≤ p → p ≤ contents.length → ∃ items ∈ contents,
      Holds rt intOfText limits pages p items total := by
    intro p hone hle
    have hlt : p - 1 < contents.length := by omega
    have hp := hpages (p - 1) _ (List.getElem?_eq_getElem hlt)
    rw [show p - 1 + 1 = p by omega] at hp
    exact ⟨_, List.getElem_mem hlt, hp⟩
  intro hflaw
  cases hflaw with
  | @status p r hone hle hp hstatus _ =>
    obtain ⟨_, _, r', hp', hstatus', _⟩ := hholds p hone hle
    rw [hp] at hp'
    cases hp'
    exact hstatus hstatus'
  | @malformed p r stop hone hle hp _ hstop =>
    obtain ⟨_, _, r', hp', _, hcontent⟩ := hholds p hone hle
    rw [hp] at hp'
    cases hp'
    rw [hstop] at hcontent
    cases hcontent
  | @run p items t item e hone hle hp hitem herror =>
    obtain ⟨items', hmem, hp'⟩ := hholds p hone hle
    obtain ⟨rfl, _⟩ := hp.unique hp'
    obtain ⟨run, hrun⟩ := hc.parsed.all.2 item (List.mem_flatten.mpr ⟨_, hmem, hitem⟩)
    rw [herror] at hrun
    cases hrun
  | @total p q items items' t t' hone hle hone' hle' hp hq hchanged =>
    obtain ⟨_, _, hp'⟩ := hholds p hone hle
    obtain ⟨_, _, hq'⟩ := hholds q hone' hle'
    exact hchanged ((hp.unique hp').2.trans (hq.unique hq').2.symm)
  | @repeated contents' t runs hle hfirst hparsed hrepeated =>
    obtain ⟨rest, hrest⟩ := hpages.begins hfirst hle
    have hbegins : contents'.flatten <+: contents.flatten := by
      rw [← hrest, List.flatten_append]
      exact List.prefix_append _ _
    have hruns := hc.parsed.begins hparsed hbegins
    exact hrepeated (hc.distinct.sublist (hruns.sublist.map _))
  | @surplus contents' t hne' hle hfirst hsurplus =>
    obtain ⟨rest, hrest⟩ := hpages.begins hfirst hle
    have hlength : contents.flatten.length = state.runs.length := hc.parsed.length_eq
    rw [← hrest, List.flatten_append, List.length_append] at hlength
    -- both totals are that of the first page
    have hone : 0 < contents'.length := List.length_pos_iff.mpr hne'
    have hfirst' := hfirst 0 _ (List.getElem?_eq_getElem hone)
    obtain ⟨_, _, hp⟩ := hholds 1 (Nat.le_refl 1) (by omega)
    have htotal := (hfirst'.unique hp).2
    omega

/-- A 304 has no flaw. -/
theorem notModified_flawless {r : GitHubResponse} (hp : pages 1 = .response r)
    (hstatus : r.status = 304) : ¬ Flaw rt intOfText limits pages 1 := by
  have hnot : ∀ items total, ¬ Holds rt intOfText limits pages 1 items total := by
    intro items total h
    obtain ⟨r', hp', hstatus', _⟩ := h
    rw [hp] at hp'
    cases hp'
    rw [hstatus] at hstatus'
    cases hstatus'
  have hfirst : ∀ contents total, contents ≠ [] →
      ¬ FirstPages rt intOfText limits pages contents total := by
    intro contents total hne h
    have hone : 0 < contents.length := List.length_pos_iff.mpr hne
    exact hnot _ _ (h 0 _ (List.getElem?_eq_getElem hone))
  intro hflaw
  cases hflaw with
  | @status p r' hone hle hp' hstatus' hnot304 =>
    have hp1 : p = 1 := by omega
    rw [hp1, hp] at hp'
    cases hp'
    exact hnot304 ⟨hstatus, hp1⟩
  | @malformed p r' stop hone hle hp' hstatus' _ =>
    have hp1 : p = 1 := by omega
    rw [hp1, hp] at hp'
    cases hp'
    rw [hstatus] at hstatus'
    cases hstatus'
  | @run p items t item e hone hle hp' _ _ =>
    have hp1 : p = 1 := by omega
    rw [hp1] at hp'
    exact hnot _ _ hp'
  | @total p q items items' t t' hone hle _ _ hp' _ _ =>
    have hp1 : p = 1 := by omega
    rw [hp1] at hp'
    exact hnot _ _ hp'
  | @repeated contents t runs _ hfirst' hparsed hrepeated =>
    by_cases hne : contents = []
    · subst hne
      cases hparsed
      exact hrepeated List.nodup_nil
    · exact hfirst contents t hne hfirst'
  | @surplus contents t hne _ hfirst' _ => exact hfirst contents t hne hfirst'

/-- A result behind pages that were read. -/
theorem finishedResult_ok {repository : PyStr} {state : FetchState} {fetched : Nat}
    {result : GitHubActionsResult}
    (h : finishedResult rt repository state fetched = .ok result) :
    result.runs = state.runs ∧ result.pagesFetched = fetched ∧
      ((result.state = .observed ∧ state.totalCount = some (state.runs.length : Int)) ∨
        (result.state = .observedPartial ∧
          state.totalCount ≠ some (state.runs.length : Int))) := by
  unfold finishedResult at h
  simp only at h
  split at h
  · next htotal =>
    obtain ⟨_, _, h⟩ := ok_of_bind h
    cases h
    exact ⟨rfl, rfl, .inl ⟨rfl, htotal⟩⟩
  · next htotal =>
    obtain ⟨_, _, h⟩ := ok_of_bind h
    cases h
    exact ⟨rfl, rfl, .inr ⟨rfl, htotal⟩⟩

/-- An unavailable result is honest. -/
theorem PaginationHonest.unavailable {run : LoopRun} {result : GitHubActionsResult}
    (hrequests : run.requests ≤ limits.maxPages) (hstate : result.state = .unavailable)
    (hruns : result.runs = [])
    (hunmodified : 1 ≤ result.pagesFetched → ∀ r, pages 1 = .response r → r.status ≠ 304) :
    PaginationHonest rt intOfText limits pages run result where
  requests := hrequests
  observed h := by
    rw [hstate] at h
    cases h
  observedPartial h := by
    rw [hstate] at h
    cases h
  flawed _ := hstate
  unmodified hone r hp hstatus := absurd hstatus (hunmodified hone r hp)
  noRuns _ := hruns
  ordered x hx := by
    rw [hruns] at hx
    cases hx

/-- A 304 on the first page is a result without runs. -/
theorem PaginationHonest.notModified {run : LoopRun} {result : GitHubActionsResult}
    (hrequests : run.requests ≤ limits.maxPages) (hstate : result.state = .notModified)
    (hruns : result.runs = []) (hfetched : result.pagesFetched = 1) {r : GitHubResponse}
    (hpage : pages 1 = .response r) (hstatus : r.status = 304) :
    PaginationHonest rt intOfText limits pages run result where
  requests := hrequests
  observed h := by
    rw [hstate] at h
    cases h
  observedPartial h := by
    rw [hstate] at h
    cases h
  flawed h := by
    rw [hfetched] at h
    exact absurd h (notModified_flawless hpage hstatus)
  unmodified _ _ _ _ := hstate
  noRuns _ := hruns
  ordered x hx := by
    rw [hruns] at hx
    cases hx

/-- Pages that were read, to a total of their own. -/
theorem PaginationHonest.finished {run : LoopRun} {repository : PyStr} {state : FetchState}
    {contents : List (List Json)} {result : GitHubActionsResult}
    (hrequests : run.requests ≤ limits.maxPages)
    (hc : Census rt intOfText limits pages contents state) (hne : contents ≠ [])
    (h : finishedResult rt repository state contents.length = .ok result) :
    PaginationHonest rt intOfText limits pages run result := by
  obtain ⟨hruns, hfetched, hstate⟩ := finishedResult_ok h
  obtain ⟨total, htotal, hpages, hle⟩ := hc.total hne
  have hall : FetchedRuns rt intOfText limits pages result total :=
    ⟨contents, hne, hfetched.symm, hpages, hruns ▸ hc.parsed, hruns ▸ hc.distinct⟩
  have hcomplete : result.state = .observed → (state.runs.length : Int) = total := by
    intro hobserved
    rcases hstate with ⟨_, heq⟩ | ⟨hpart, _⟩
    · rw [htotal] at heq
      exact (Option.some.inj heq).symm
    · rw [hobserved] at hpart
      cases hpart
  have hincomplete : result.state = .observedPartial → (state.runs.length : Int) ≠ total := by
    intro hpart heq
    rcases hstate with ⟨hobserved, _⟩ | ⟨_, hdiffers⟩
    · rw [hobserved] at hpart
      cases hpart
    · exact hdiffers (htotal.trans (congrArg some heq.symm))
  have hread : result.state = .observed ∨ result.state = .observedPartial :=
    hstate.imp And.left And.left
  refine ⟨hrequests, ?_, ?_, ?_, ?_, ?_, ?_⟩
  · intro hobserved
    refine ⟨total, hall, ?_⟩
    rw [hruns]
    exact hcomplete hobserved
  · intro hpart
    refine ⟨total, hall, ?_⟩
    have hdiffers := hincomplete hpart
    rw [hruns]
    omega
  · intro hflaw
    rw [hfetched] at hflaw
    exact absurd hflaw (hc.flawless hne)
  · intro _ r hpage hstatus
    -- the first page was one of those that were read
    have hpos : 0 < contents.length := List.length_pos_iff.mpr hne
    obtain ⟨r', hpage', hstatus', _⟩ := hpages 0 _ (List.getElem?_eq_getElem hpos)
    rw [show 0 + 1 = 1 from rfl, hpage] at hpage'
    cases hpage'
    rw [hstatus] at hstatus'
    cases hstatus'
  · intro hnone
    rcases hread with hread | hread
    · rw [hread] at hnone
      rcases hnone with h | h
      · cases h
      · cases h
    · rw [hread] at hnone
      rcases hnone with h | h
      · cases h
      · cases h
  · intro x hx
    rw [hruns] at hx
    exact hc.parsed.all.1 x hx

end Honest

/-- A response of this body. -/
def GitHubResponse.sample (body : List UInt8) : GitHubResponse where
  status := 200
  contentLength := none
  etag := none
  chunks := [body]
  broken := false

def GitHubActionsLimits.sample : GitHubActionsLimits where
  maxPages := 3
  perPage := 2
  maxBodyBytes := 4096
  maxPages_range := by decide
  perPage_range := by decide
  maxBodyBytes_range := by decide

end Lyte
