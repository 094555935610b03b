import Lyte.Domain.Receipts

/-
  Lyte.Governance.SecondBrain — memory drafts and the workspace partition.
-/

namespace Lyte

inductive MemoryKind where
  | observation | approvedKnowledge
deriving DecidableEq

def MemoryKind.value : MemoryKind → PyStr
  | .observation => py "OBSERVATION"
  | .approvedKnowledge => py "APPROVED_KNOWLEDGE"

/-- A memory draft; its subject dimensions are a dict, so no dimension occurs
twice. -/
structure MemoryDraft where
  kind : MemoryKind
  summary : PyStr
  truthLabel : TruthLabel
  evidenceRefs : List PyStr
  subjects : List PyStr
  subjectDimensions : List (PyStr × List PyStr)
  metadata : JsonDict
  dimensionsNodup : (subjectDimensions.map Prod.fst).Nodup

variable (rt : Runtime)

/-- `enterprise_memory_partition`. -/
def enterpriseMemoryPartition (scope : Scope) : Except Exn PyStr :=
  sha256Text rt (py "szl.lyte.enterprise-memory.partition/v1" ++ [0] ++ scope.tenantId.text ++ [0]
    ++ scope.workspaceId.text)

/-- `d[key] = value` on a dict. -/
def setField (fields : List (PyStr × Json)) (key : PyStr) (value : Json) : List (PyStr × Json) :=
  match fields with
  | [] => [(key, value)]
  | (k, v) :: rest => if k = key then (k, value) :: rest else (k, v) :: setField rest key value

/-- The metadata a memory record stores: the draft's, with its dimensions. -/
def MemoryDraft.storedMetadata (d : MemoryDraft) : List (PyStr × Json) :=
  setField d.metadata.fields (py "subject_dimensions")
    (.dict (d.subjectDimensions.map (fun p => (p.1, Json.strs p.2))))

/-! ## §1. The stored metadata is a dict. -/

theorem setField_keys (fields : List (PyStr × Json)) (key : PyStr) (value : Json) :
    (setField fields key value).map Prod.fst
      = if key ∈ fields.map Prod.fst then fields.map Prod.fst else fields.map Prod.fst ++ [key] := by
  induction fields with
  | nil => simp [setField]
  | cons p rest ih =>
    obtain ⟨k, v⟩ := p
    by_cases hk : k = key
    · simp [setField, hk]
    · simp only [setField, if_neg hk, List.map_cons, ih]
      by_cases hm : key ∈ rest.map Prod.fst
      · rw [if_pos hm, if_pos (List.mem_cons_of_mem _ hm)]
      · have hn : key ∉ k :: rest.map Prod.fst := by
          rw [List.mem_cons]
          rintro (rfl | h)
          · exact hk rfl
          · exact hm h
        rw [if_neg hm, if_neg hn, List.cons_append]

theorem setField_values {fields : List (PyStr × Json)} {key : PyStr} {value : Json}
    (hf : Json.nodupKeysFields fields = true) (hv : value.nodupKeys = true) :
    Json.nodupKeysFields (setField fields key value) = true := by
  induction fields with
  | nil => simp [setField, Json.nodupKeysFields, hv]
  | cons p rest ih =>
    obtain ⟨k, v⟩ := p
    simp only [Json.nodupKeysFields, Bool.and_eq_true] at hf
    by_cases hk : k = key
    · simp [setField, hk, Json.nodupKeysFields, hv, hf.2]
    · simp [setField, hk, Json.nodupKeysFields, hf.1, ih hf.2]

theorem setField_nodup {fields : List (PyStr × Json)} {key : PyStr} {value : Json}
    (hf : (Json.dict fields).nodupKeys = true) (hv : value.nodupKeys = true) :
    (Json.dict (setField fields key value)).nodupKeys = true := by
  simp only [Json.nodupKeys, Bool.and_eq_true, decide_eq_true_eq] at hf ⊢
  refine ⟨?_, setField_values hf.2 hv⟩
  rw [setField_keys]
  split
  · exact hf.1
  · next h =>
    rw [List.nodup_append]
    refine ⟨hf.1, by simp, ?_⟩
    intro a ha b hb
    rw [List.mem_singleton.mp hb]
    rintro rfl
    exact h ha

theorem strs_nodupKeys (items : List PyStr) : (Json.strs items).nodupKeys = true := by
  induction items with
  | nil => rfl
  | cons x xs ih => simpa [Json.strs, Json.nodupKeys, Json.nodupKeysItems] using ih

theorem MemoryDraft.storedMetadata_nodup (d : MemoryDraft) :
    (Json.dict d.storedMetadata).nodupKeys = true := by
  refine setField_nodup d.metadata.nodup ?_
  have hvals : ∀ l : List (PyStr × List PyStr),
      Json.nodupKeysFields (l.map (fun p => (p.1, Json.strs p.2))) = true := by
    intro l
    induction l with
    | nil => rfl
    | cons p ps ih => simp [Json.nodupKeysFields, strs_nodupKeys, ih]
  have hkeys : (d.subjectDimensions.map (fun p => (p.1, Json.strs p.2))).map Prod.fst
      = d.subjectDimensions.map Prod.fst := by simp [Function.comp_def]
  simp only [Json.nodupKeys, hkeys, hvals, Bool.and_true, decide_eq_true_eq]
  exact d.dimensionsNodup

end Lyte
