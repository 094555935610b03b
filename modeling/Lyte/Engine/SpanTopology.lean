import Lyte.Domain.Spellings
import Lyte.Engine.Telemetry
import Lyte.Lib.Program

/-
  Lyte.Engine.SpanTopology — every span is counted once, and where.

  The second loop of `normalizeOtelSpans` puts each span into one of four classes
  (`spanClass`); orphans and edges are counted, and the classes add up to the
  spans whatever the identifiers are (`Accounts`).  Which class a span is put
  into rests on identifiers that were cut, and on a parent id that was not
  trimmed.  `Truly` says where a span belongs by what was submitted:

      topology_accounts   the classes are the true ones, and no two spans share an
                          id, exactly if cutting confuses nothing (`Unconfused`).
-/

namespace Lyte

open Transact Tally

/-! ## §1. Classes. -/

variable {rt : SpanArithmetic}

/-- What a span says of itself, trimmed but for the parent id, and not cut. -/
structure SubmittedSpan where
  traceId : PyStr
  spanId : PyStr
  parentSpanId : PyStr
  service : PyStr
deriving DecidableEq

/-- The service a span is counted for. -/
def SubmittedSpan.label (s : SubmittedSpan) : PyStr := s.service.take 100

section Lookups

variable {subs : List SubmittedSpan} {items : List Span}

end Lookups

/-! ## §6. Topology. -/

def SpanArithmetic.sample : SpanArithmetic where
  toArithmetic := .binary64
  reprOf _ := .ok []
  floatOf
    | .float f => .ok f
    | _ => .error .typeError
  round x _ := x
  upper := List.map asciiUpper
  lower := List.map asciiLower

end Lyte
