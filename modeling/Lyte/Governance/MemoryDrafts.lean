import Lyte.Domain.Operational
import Lyte.Governance.SecondBrain

/-
  Lyte.Governance.MemoryDrafts — what a memory draft admits.

  `MemoryDraft.new` is the constructor with its `__post_init__`: summary,
  references, subjects and dimensions are normalised and bounded, and the
  metadata passes two guards, the one against credentials and the one against
  session and raw content fields.
-/

namespace Lyte

variable (rt : Runtime)

/-! ## §1. The metadata guard. -/

/-- `_NON_MEMORY_FIELDS`. -/
def nonMemoryFields : List PyStr :=
  [py "scopedigest", py "sessiondigest", py "sessionhash", py "rawprompt", py "rawresponse"]

/-- `re.sub(r"[^a-z0-9]", "", key.casefold())`. -/
def compactKey (key : PyStr) : PyStr := (rt.casefold key).filter isWordChar

mutual
/-- The first session or raw content field of a value. -/
def nonMemoryField : Json → Option PyStr
  | .dict fs => nonMemoryFieldFields fs
  | .list xs => nonMemoryFieldItems xs
  | _ => none

def nonMemoryFieldFields : List (PyStr × Json) → Option PyStr
  | [] => none
  | (k, v) :: fs =>
      if nonMemoryFields.contains (compactKey rt k) then some k
      else match nonMemoryField v with
        | some key => some key
        | none => nonMemoryFieldFields fs

def nonMemoryFieldItems : List Json → Option PyStr
  | [] => none
  | x :: xs =>
      match nonMemoryField x with
      | some key => some key
      | none => nonMemoryFieldItems xs
end

/-- `_assert_summary_metadata`. -/
def assertSummaryMetadata (value : Json) : Except Exn Unit :=
  match nonMemoryField rt value with
  | some key => .error (.valueError
      (py "session and raw content fields are forbidden in memory: " ++ key))
  | none => .ok ()

/-! ## §2. Dimensions. -/

/-- `SUBJECT_DIMENSIONS`. -/
def subjectDimensionNames : List PyStr :=
  [py "service", py "journey", py "outcome", py "incident", py "decision"]

/-- `dimensions[key] = values`. -/
def assign {β : Type} (dims : List (PyStr × β)) (key : PyStr) (value : β) : List (PyStr × β) :=
  match dims with
  | [] => [(key, value)]
  | (k, v) :: rest => if k = key then (k, value) :: rest else (k, v) :: assign rest key value

theorem assign_keys {β : Type} (dims : List (PyStr × β)) (key : PyStr) (value : β) :
    (assign dims key value).map Prod.fst
      = if key ∈ dims.map Prod.fst then dims.map Prod.fst else dims.map Prod.fst ++ [key] := by
  induction dims with
  | nil => simp [assign]
  | cons p rest ih =>
    obtain ⟨k, v⟩ := p
    by_cases hk : k = key
    · simp [assign, hk]
    · simp only [assign, if_neg hk, List.map_cons, ih]
      by_cases hm : key ∈ rest.map Prod.fst
      · rw [if_pos hm, if_pos (List.mem_cons_of_mem _ hm)]
      · have hn : key ∉ k :: rest.map Prod.fst := by
          intro h
          rcases List.mem_cons.mp h with h | h
          · exact hk h.symm
          · exact hm h
        rw [if_neg hm, if_neg hn, List.cons_append]

/-- A dict of dimensions has no dimension twice. -/
theorem assign_nodup {β : Type} {dims : List (PyStr × β)} (h : (dims.map Prod.fst).Nodup)
    (key : PyStr) (value : β) : ((assign dims key value).map Prod.fst).Nodup := by
  rw [assign_keys]
  by_cases hm : key ∈ dims.map Prod.fst
  · rw [if_pos hm]
    exact h
  · rw [if_neg hm, List.nodup_append]
    refine ⟨h, by simp, ?_⟩
    intro a ha b hb hab
    rw [hab, List.mem_singleton.mp hb] at ha
    exact hm ha

/-- Dimensions, each with its values. -/
abbrev Dimensions := { dims : List (PyStr × List PyStr) // (dims.map Prod.fst).Nodup }

/-- The loop over `subject_dimensions`; a name outside of ASCII is in no case
one of them. -/
def dimensionLoop : List (PyStr × List PyStr) → Dimensions → Except Exn Dimensions
  | [], dims => .ok dims
  | (rawDimension, rawValues) :: rest, dims =>
      let dimension := (strip rawDimension).map asciiLower
      let values := cleanRefs rawValues
      if !subjectDimensionNames.contains dimension then
        .error (.valueError (py "unsupported memory subject dimension: " ++ dimension))
      else if 100 < values.length then
        .error (.valueError
          (py "memory subject dimension " ++ dimension ++ py " permits at most 100 values"))
      else if values.any (fun v => !isIdentifier v) then
        .error (.valueError
          (py "memory subject dimension " ++ dimension ++ py " contains an invalid identifier"))
      else if values.isEmpty then dimensionLoop rest dims
      else dimensionLoop rest ⟨assign dims.1 dimension values, assign_nodup dims.2 _ _⟩

/-! ## §3. The constructor. -/

/-- `tuple(dict.fromkeys(" ".join(item.split()) for item in subjects if item.strip()))`. -/
def cleanSubjects (items : List PyStr) : List PyStr :=
  fromkeys ((items.filter (fun s => !(strip s).isEmpty)).map squeeze)

/-- `MemoryDraft(…)` with its `__post_init__`. -/
def MemoryDraft.new (kind : MemoryKind) (summary : PyStr) (truthLabel : TruthLabel)
    (evidenceRefs subjects : List PyStr) (subjectDimensions : List (PyStr × List PyStr))
    (metadata : JsonDict) : Except Exn MemoryDraft := do
  let summary := squeeze summary
  if summary.isEmpty || 2000 < summary.length then
    throw (.valueError (py "memory summary must contain 1-2000 characters"))
  let refs := cleanRefs evidenceRefs
  if refs.isEmpty then
    throw (.valueError (py "memory records require at least one evidence reference"))
  if 64 < refs.length || refs.any (fun r => 512 < r.length) then
    throw (.valueError
      (py "memory evidence references must be bounded to 64 x 512 characters"))
  if kind = .approvedKnowledge ∧
      (truthLabel = .sample ∨ truthLabel = .roadmap ∨ truthLabel = .unavailable) then
    throw (.valueError (py "approved knowledge cannot be SAMPLE, ROADMAP, or UNAVAILABLE"))
  let subjects := cleanSubjects subjects
  if 100 < subjects.length then
    throw (.valueError (py "memory records permit at most 100 subjects"))
  let dims ← dimensionLoop subjectDimensions ⟨[], List.nodup_nil⟩
  if (metadata.fields.map Prod.fst).contains (py "subject_dimensions") then
    throw (.valueError (py "memory.metadata.subject_dimensions is reserved"))
  assertNoSensitiveKeys rt metadata.json (py "memory.metadata")
  assertSummaryMetadata rt metadata.json
  return ⟨kind, summary, truthLabel, refs, subjects, dims.1, metadata, dims.2⟩

end Lyte
