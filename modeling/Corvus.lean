import Corvus.Mvp.Cancellation
import Corvus.Mvp.KillSwitch
import Corvus.Mvp.Dependency
import Corvus.Mvp.CrashSafety
import Corvus.Mvp.ApiStreams
import Corvus.Agent.Discovery
import Corvus.Agent.Interleaving
import Corvus.Agent.Stopping
import Corvus.Live.InStep
import Corvus.Skills.RoundTrip
import Corvus.Ingress.Application
import Corvus.Ingress.Taking
import Corvus.Runs.Outcome
import Corvus.Deployment.Leases
import Corvus.Deployment.Commits
import Corvus.Projects.AuditChain
import Corvus.Deployment.Handoffs
import Corvus.Deployment.Registries
import Corvus.Sync.Ledger
import Corvus.Adapters.Chains
import Corvus.Adapters.Cancelling
import Corvus.Conversations.Concealment
import Corvus.Oauth.SingleUse
import Corvus.Worktrees.Recovery
import Corvus.Accounts.Binding
import Corvus.Desktop.Shutdown
import Corvus.Web.Following
import Corvus.Codex.Packages
import Corvus.Mvp.Ordering
import Corvus.Mvp.DeviceFlows
import Corvus.Schedules.Dates
import Corvus.Conversations.Streams
import Corvus.Workflow.Closing
import Corvus.Process.Chunks
import Corvus.Policies.Narrowing
import Corvus.Credentials.Belonging
import Corvus.Desktop.Diagnostics
import Corvus.Schedules.Texts
import Corvus.Agent.Pinned
import Corvus.Repositories.Listing
import Corvus.Governance.Quarantine
import Corvus.Context.Firewall
import Corvus.Process.Termination
