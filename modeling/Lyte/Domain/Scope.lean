import Lyte.Domain.Text

/-
  Lyte.Domain.Scope — identities and truth labels.

  A UUID is kept as its canonical text, which is the only thing the service
  does with it besides comparing it.
-/

namespace Lyte

structure Uuid where
  text : PyStr
deriving DecidableEq

structure Scope where
  tenantId : Uuid
  workspaceId : Uuid
deriving DecidableEq

structure TenantSpec where
  slug : PyStr
  name : PyStr
  id : Uuid

structure WorkspaceSpec where
  tenantId : Uuid
  slug : PyStr
  name : PyStr
  id : Uuid

/-- Truth labels, strongest evidence first. -/
inductive TruthLabel where
  | measured | reported | modeled | sample | roadmap | unavailable
deriving DecidableEq

def TruthLabel.value : TruthLabel → PyStr
  | .measured => py "MEASURED"
  | .reported => py "REPORTED"
  | .modeled => py "MODELED"
  | .sample => py "SAMPLE"
  | .roadmap => py "ROADMAP"
  | .unavailable => py "UNAVAILABLE"

theorem TruthLabel.value_inj {a b : TruthLabel} (h : a.value = b.value) : a = b := by
  cases a <;> cases b <;> first | rfl | simp [TruthLabel.value] at h

/-- `TruthLabel(value)`. -/
def TruthLabel.ofValue? (s : PyStr) : Option TruthLabel :=
  [TruthLabel.measured, .reported, .modeled, .sample, .roadmap, .unavailable].find?
    (fun l => l.value == s)

end Lyte
