import Lyte.Domain.Text

/-
  Lyte.Domain.Errors — the exceptions the service raises.

  One constructor per exception class the modelled code raises or catches;
  messages are kept where the source writes one.  The class hierarchy enters
  only through the predicates at the end, one for each `except` clause.
-/

namespace Lyte

/-- An exception. -/
inductive Exn where
  -- Python
  | valueError (msg : PyStr)
  | unicodeEncodeError
  | overflowError
  | typeError
  | attributeError
  -- lyte.persistence.store
  | persistenceError (msg : PyStr)
  | scopeNotFound (msg : PyStr)
  | idempotencyConflict (msg : PyStr)
  | operationalConflict (msg : PyStr)
  | provisioningConflict (msg : PyStr)
  -- sqlalchemy
  | integrityError
  | sqlalchemyError
  -- lyte.persistence.preservation
  | preservationError (code : PyStr)
  -- lyte.connectors
  | payloadValidationError (msg : PyStr)
  | governedEventError (msg : PyStr)
  | signatureVerificationError (msg : PyStr)
  | timestampSkewError (msg : PyStr)
  | replayDetectedError (msg : PyStr)
  | webhookIdempotencyConflict (msg : PyStr)
  | replayProtectionUnavailable (msg : PyStr)
  -- fastapi
  | httpException (status : Nat) (detail : PyStr)
deriving DecidableEq

namespace Exn

/-- `except IntegrityError`. -/
def isIntegrityError : Exn → Bool
  | .integrityError => true
  | _ => false

/-- `except SQLAlchemyError`; IntegrityError is a subclass. -/
def isSQLAlchemyError : Exn → Bool
  | .integrityError | .sqlalchemyError => true
  | _ => false

/-- `except PersistenceError` and its subclasses. -/
def isPersistenceError : Exn → Bool
  | .persistenceError _ | .scopeNotFound _ | .idempotencyConflict _ | .operationalConflict _
  | .provisioningConflict _ => true
  | _ => false

/-- Raised by the interpreter itself while values are checked, encoded or
digested: ValueError, UnicodeEncodeError, OverflowError, TypeError. -/
def isLocalError : Exn → Bool
  | .valueError _ | .unicodeEncodeError | .overflowError | .typeError => true
  | _ => false

/-- `except ProvisioningConflict`. -/
def isProvisioningConflict : Exn → Bool
  | .provisioningConflict _ => true
  | _ => false

/-- `except PayloadValidationError`. -/
def isPayloadValidationError : Exn → Bool
  | .payloadValidationError _ => true
  | _ => false

/-- `except ValueError`: UnicodeEncodeError and PayloadValidationError are
subclasses. -/
def isValueError : Exn → Bool
  | .valueError _ | .unicodeEncodeError | .payloadValidationError _ => true
  | _ => false

/-- `except GovernedEventError` and its subclasses. -/
def isGovernedEventError : Exn → Bool
  | .governedEventError _ | .signatureVerificationError _ | .timestampSkewError _
  | .replayDetectedError _ | .webhookIdempotencyConflict _ | .replayProtectionUnavailable _ => true
  | _ => false

/-- `except (AttributeError, TypeError, ValueError)`. -/
def isValueLike : Exn → Bool
  | .valueError _ | .unicodeEncodeError | .attributeError | .typeError
  | .payloadValidationError _ => true
  | _ => false

end Exn

end Lyte
