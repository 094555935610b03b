import Lyte.Persistence.Preservation
import Lyte.Persistence.Verify

/-
  Lyte.Persistence.TamperEvidence — which edits `verify_chain` notices.

  A row is stored twice: as the basis its digest is taken of, and as the columns
  that the read operations return.  The preservation auditor and the bundle
  resolver compare the two; `verify_chain` only reads the basis and four columns
  of the mixin (the row's `Spine`).  So its verdict does not depend on any other
  column, and it accepts a stream in which one was edited.
-/

namespace Lyte

open Transact HashChain

/-! ## §1. What is served and what is bound. -/

variable (rt : Runtime) (d : Dialect)

variable {rt d}

end Lyte
