import Iac.Core.Executor.Rollback
import Iac.Controlplane.Api.Drift
import Iac.Controlplane.Store.PrepareRollback.Exact
import Iac.Controlplane.Store.Routing.Conservation
import Iac.Controlplane.Store.Routing.Share
import Iac.Agent.Credentials
import Iac.Agent.TokenRotation
import Iac.Agent.Binding
import Iac.Agent.DriftSecrets
import Iac.Agent.Observations
import Iac.Agent.Refresh
import Iac.Agent.Replay
import Iac.Controlplane.Api.ApprovalGate
import Iac.Controlplane.Api.Approvers
import Iac.Controlplane.Api.BlastRadius
import Iac.Controlplane.Modules.Scanners
import Iac.Controlplane.RateLimit
import Iac.Controlplane.Secrets.Paths
import Iac.Controlplane.Signing.Crash
import Iac.Controlplane.Signing.Rotation
import Iac.Controlplane.Store.ApproveOperation.Race
import Iac.Controlplane.Store.Audit.Evidence
import Iac.Controlplane.Store.Audit.Interleaving
import Iac.Controlplane.Store.Dispatch.Race
import Iac.Controlplane.Store.Lease
import Iac.Controlplane.Store.Placeholders
import Iac.Controlplane.Store.Rollout.Failure
import Iac.Controlplane.Store.Rollout.Progress
import Iac.Controlplane.Store.TextOrder
import Iac.Controlplane.Store.Users.LastAdmin
import Iac.Controlplane.Store.Users.Revocation
import Iac.Controlplane.Webhook.Delivery
import Iac.Controlplane.Webhook.Egress
import Iac.Sql.ReadCommitted.Gate
import Iac.Controlplane.RateLimit.Retry
import Iac.Controlplane.Retention
import Iac.Agent.Capabilities
import Iac.Agent.Capabilities.Gate
import Iac.Agent.Capabilities.Plugins
import Iac.Core.Net
import Iac.Controlplane.Api.ClientIp
import Iac.Collections.Words
import Iac.Providers.Cron.Render
import Iac.Core.Numeral
import Iac.Controlplane.Webhook.Signature
import Iac.Controlplane.Maintenance
import Iac.Controlplane.Server
import Iac.Controlplane.Api.Revert
import Iac.Providers.Process.Channel
import Iac.Providers.Package
import Iac.Providers.Compose
import Iac.Providers.Compose.Converged
import Iac.Providers.Nginx.InStep
import Iac.Providers.Plugin.Methods
import Iac.Providers.Plugin.SpecDiff
import Iac.Cli.Credentials.Live
import Iac.Core.Subprocess.Deadline
import Iac.Controlplane.SshPush.Settles
import Iac.Cli.Inventory
import Iac.Providers.Acme.Pair
import Iac.Providers.Sysctl
import Iac.Providers.Monitoring.Budget
import Iac.Providers.Monitoring.Metadata
import Iac.Controlplane.Api.Users.Atomic
import Iac.Cli.Fanout.Rollout
import Iac.Controlplane.Store.Audit.Resume
import Iac.Cli.AuditFollow
import Iac.Cli.Ttl
import Iac.Controlplane.Store.Preview.Accepted
import Iac.Controlplane.Store.Users.Refresh
import Iac.Cli.ValidateSpec
import Iac.Providers.File.Restore
import Iac.Controlplane.Store.DesiredState.Newest
import Iac.Controlplane.Secrets.Pointers
import Iac.Controlplane.Store.Preview.Deferred
import Iac.Providers.Firewall.Iptables.Settled
