import Lyte.Connectors.Attributes
import Lyte.Connectors.Base
import Lyte.Connectors.GenericWebhook
import Lyte.Connectors.GithubActions
import Lyte.Connectors.GithubFailures
import Lyte.Connectors.GithubPagination
import Lyte.Connectors.IngestRoutes
import Lyte.Connectors.OtlpAdmission
import Lyte.Connectors.OtlpFailures
import Lyte.Connectors.OtlpHttp
import Lyte.Connectors.OtlpRecords
import Lyte.Connectors.StrictJson
import Lyte.Connectors.WebhookContract
import Lyte.Connectors.WebhookFailures
import Lyte.Connectors.WebhookReplay
import Lyte.Connectors.WebhookScopes
import Lyte.Domain.AdvisoryAgreement
import Lyte.Domain.Anatomy
import Lyte.Domain.AsciiJson
import Lyte.Domain.Builtins
import Lyte.Domain.Canonical
import Lyte.Domain.Clock
import Lyte.Domain.Decode
import Lyte.Domain.Dicts
import Lyte.Domain.Errors
import Lyte.Domain.Formulas
import Lyte.Domain.Json
import Lyte.Domain.Operational
import Lyte.Domain.PyValue
import Lyte.Domain.Receipts
import Lyte.Domain.RoundTrip
import Lyte.Domain.Scanned
import Lyte.Domain.Scope
import Lyte.Domain.Spellings
import Lyte.Domain.Text
import Lyte.Engine.LedgerHonesty
import Lyte.Engine.SessionLedger
import Lyte.Engine.SpanTopology
import Lyte.Engine.Telemetry
import Lyte.Governance.MemoryDrafts
import Lyte.Governance.SecondBrain
import Lyte.Intelligence.AskEvidence
import Lyte.Intelligence.AskGrounding
import Lyte.Intelligence.AskIntents
import Lyte.Intelligence.BrowserVerifier
import Lyte.Intelligence.EnterpriseAsk
import Lyte.Intelligence.ForecastEvaluation
import Lyte.Intelligence.ForecastFits
import Lyte.Intelligence.ForecastInspection
import Lyte.Intelligence.ForecastLoom
import Lyte.Intelligence.ForecastRisk
import Lyte.Intelligence.LivingAnatomy
import Lyte.Intelligence.QuantileKeys
import Lyte.Intelligence.RiskSoundness
import Lyte.Intelligence.VerifierAcceptance
import Lyte.Intelligence.VerifierAgreement
import Lyte.Intelligence.WalkForward
import Lyte.Lib.Contract
import Lyte.Lib.Expiring
import Lyte.Lib.HashChain
import Lyte.Lib.Interleaving
import Lyte.Lib.KeyedLog
import Lyte.Lib.LockOrder
import Lyte.Lib.Paging
import Lyte.Lib.Program
import Lyte.Lib.Quantiles
import Lyte.Lib.Reading
import Lyte.Lib.Schedule
import Lyte.Lib.Search
import Lyte.Lib.StageChain
import Lyte.Lib.Tally
import Lyte.Lib.Versions
import Lyte.Persistence.Agreement
import Lyte.Persistence.AnatomyBinding
import Lyte.Persistence.Audit
import Lyte.Persistence.BatchUpsert
import Lyte.Persistence.Bundle
import Lyte.Persistence.BundleAtomicity
import Lyte.Persistence.BundleContract
import Lyte.Persistence.BundleResolve
import Lyte.Persistence.CanonicalLines
import Lyte.Persistence.Commits
import Lyte.Persistence.Contracts
import Lyte.Persistence.DocumentHashes
import Lyte.Persistence.Frame
import Lyte.Persistence.Idempotency
import Lyte.Persistence.Invariant
import Lyte.Persistence.LockOrder
import Lyte.Persistence.MemoryEvidence
import Lyte.Persistence.MemorySearch
import Lyte.Persistence.Models
import Lyte.Persistence.OperationalConcurrency
import Lyte.Persistence.OperationalListing
import Lyte.Persistence.Preservation
import Lyte.Persistence.ProvisionContract
import Lyte.Persistence.ProvisionConvergence
import Lyte.Persistence.ProvisionEvidence
import Lyte.Persistence.ProvisionSafety
import Lyte.Persistence.Provisioning
import Lyte.Persistence.Restore
import Lyte.Persistence.RestoreHonesty
import Lyte.Persistence.Runs
import Lyte.Persistence.Sealed
import Lyte.Persistence.Store
import Lyte.Persistence.TamperEvidence
import Lyte.Persistence.Verify
import Lyte.Persistence.VerifyConcurrency
import Lyte.Release.BuildReceipt
import Lyte.Release.ReceiptExactness
import Lyte.Release.ReceiptFailClosed
