import Overture.Api.CallbackNonces
import Overture.Coordinator.Handoff
import Overture.Coordinator.Cumulative
import Overture.Coordinator.SubmitExits
import Overture.Coordinator.EffectJournal
import Overture.Coordinator.Gates
import Overture.Api.ProofRoutes
import Overture.Api.EvidenceOutcomes
import Overture.Api.EvidenceLinks
import Overture.Api.ReconciliationTurns
import Overture.Api.ActionPacks
import Overture.Api.RoboticsRevocation
import Overture.Api.RuntimeSignatures
import Overture.Api.CommandQueue
import Overture.Policyproposals.Lifecycle
import Overture.Coordinator.DeadlineReaper
import Overture.Coordinator.InputRefScope
import Overture.Coordinator.StepReceipts
import Overture.Coordinator.CredentialRevocation
import Overture.Sdk.DurableBinding
import Overture.Sdk.TamperEvidence
import Overture.Security.FleetDecisions
import Overture.Middleware.TenantSessions
import Overture.Coordinator.CapabilityPolicy
import Overture.Api.TargetAddresses
import Overture.Api.EvidenceAcceptance
import Overture.Security.KeyVaultRuns
import Overture.Api.ResponseMessages
import Overture.Coordinator.DispatchKeys
import Overture.Security.KeyRotation
import Overture.Middleware.TierLimits
import Overture.Coordinator.InputKeyrings
import Overture.Api.McpRuntimes
import Overture.Internal.BreakerRuns
import Overture.Policy.ControlSurface
import Overture.Middleware.ConcurrentLimiter
import Overture.Middleware.DistributedRateLimit
import Overture.Coordinator.CredentialExpiry
