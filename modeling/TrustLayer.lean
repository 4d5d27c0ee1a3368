import TrustLayer.AgentGuard.AllowList
import TrustLayer.AgentGuard.Audit
import TrustLayer.AgentGuard.Firewall.Refetch
import TrustLayer.AgentGuard.Firewall.Scan
import TrustLayer.AgentGuard.Firewall.TwoStage.Agreement
import TrustLayer.AgentGuard.Gate.Breadth
import TrustLayer.AgentGuard.Gate.Fidelity
import TrustLayer.AgentGuard.Gate.Grammar
import TrustLayer.AgentGuard.Gate.Nesting
import TrustLayer.AgentGuard.Gate.NoPanic
import TrustLayer.AgentGuard.Gate.Padding
import TrustLayer.AgentGuard.Gate.QuotedParens
import TrustLayer.AgentGuard.Gate.SpanLine
import TrustLayer.AgentGuard.Gate.Strength
import TrustLayer.AgentGuard.Gate.Thresholds
import TrustLayer.AgentGuard.Hook.Inspection
import TrustLayer.AgentGuard.Hook.Pathguard
import TrustLayer.AgentGuard.Mcp
import TrustLayer.AgentGuard.Policy.Accounting
import TrustLayer.AgentGuard.Policy.DefaultDeny
import TrustLayer.AgentGuard.Sandbox.Confinement
import TrustLayer.AgentGuard.Sandbox.Landlock
import TrustLayer.AgentGuard.Sandbox.Launch
import TrustLayer.AgentGuard.Sandbox.Pathsafe
import TrustLayer.AgentGuard.Sandbox.Runner
import TrustLayer.AgentGuard.Sandbox.Seccomp
import TrustLayer.AgentGuard.Sandbox.Streams
import TrustLayer.Baaar
import TrustLayer.Baaar.Consensus
import TrustLayer.BandRoom
import TrustLayer.Catalyst
import TrustLayer.Chains
import TrustLayer.CircuitBreaker
import TrustLayer.CircuitBreaker.Sequential
import TrustLayer.CmsVerify
import TrustLayer.ContentNegotiation
import TrustLayer.HmacChain
import TrustLayer.KeyRotation
import TrustLayer.Library.LeftmostFirst.Occurs
import TrustLayer.Library.LeftmostFirst.Phrases
import TrustLayer.Library.Memo
import TrustLayer.Library.Register
import TrustLayer.Library.Runs
import TrustLayer.Notary.Concurrency
import TrustLayer.Notary.Db
import TrustLayer.OrgResolver
import TrustLayer.Rfc9162
import TrustLayer.Rfc9162.Ccf
import TrustLayer.Scitt
import TrustLayer.SerdeJson.Shape
import TrustLayer.ThemisAgents.AuditWatchdog
import TrustLayer.ThemisAgents.Complete
import TrustLayer.ThemisAgents.Compression
import TrustLayer.ThemisAgents.Provenance
import TrustLayer.ThemisAgents.Signals
import TrustLayer.ThemisAgents.Survival
import TrustLayer.ThemisAgents.Taxonomy
import TrustLayer.ThemisAgents.Truncation
import TrustLayer.ThemisBandClient.DidKey
import TrustLayer.ThemisBandClient.Socket
import TrustLayer.ThemisBandClient.TrustGate
import TrustLayer.ThemisCompliance.CallMetrics
import TrustLayer.ThemisCompliance.Inv15
import TrustLayer.ThemisCompliance.SarifMerge
import TrustLayer.ThemisEvidence
import TrustLayer.ThemisEvidence.Atomicity
import TrustLayer.ThemisEvidence.Packet
import TrustLayer.ThemisEvidence.Persistence
import TrustLayer.ThemisEvidence.Timestamp.Chain
import TrustLayer.ThemisEvidence.Timestamp.Strict
import TrustLayer.ThemisEvidence.Timestamp.Totality
import TrustLayer.ThemisEvidence.Timestamp.Wrap
import TrustLayer.ThemisOrchestrator.A2aHandler
import TrustLayer.ThemisOrchestrator.A2aStores
import TrustLayer.ThemisOrchestrator.AlertFatigue
import TrustLayer.ThemisOrchestrator.DualLlm
import TrustLayer.ThemisOrchestrator.Healthy
import TrustLayer.ThemisOrchestrator.History
import TrustLayer.ThemisOrchestrator.Http
import TrustLayer.ThemisOrchestrator.Keyring
import TrustLayer.ThemisOrchestrator.Quarantine
import TrustLayer.ThemisOrchestrator.Redaction
import TrustLayer.ThemisOrchestrator.Sandbox
import TrustLayer.ThemisOrchestrator.Suspension
import TrustLayer.ThemisOrchestrator.Telemetry
import TrustLayer.ThemisOrchestrator.Tenants
import TrustLayer.ThemisOrchestrator.WireFormat
import TrustLayer.TlArgus.Cordon
import TrustLayer.TlEvidence.BundlePdf
import TrustLayer.TlEvidence.Hybrid
import TrustLayer.TlEvidence.Tsa
import TrustLayer.TlFrontend.Sse
import TrustLayer.TlMcpServer.Envelope
import TrustLayer.TlOrchestrator
import TrustLayer.TlVerify
import TrustLayer.TlVerify.Panics
import TrustLayer.TlWasm.CanonicalHash
import TrustLayer.VerificationPage
import TrustLayer.Watermark
import TrustLayer.Watermark.Detect
import TrustLayer.Watermark.Embed
import TrustLayer.Watermark.GreenSize
