import KarpenterProviderSsh.Interleaving.Programs
import KarpenterProviderSsh.Interleaving.Traces
import KarpenterProviderSsh.Interleaving.Pools
import KarpenterProviderSsh.Interleaving.Protocols
import KarpenterProviderSsh.Interleaving.Contracts
import KarpenterProviderSsh.Interleaving.Interference
import KarpenterProviderSsh.Interleaving.Logs
import KarpenterProviderSsh.Control.Feeds
import KarpenterProviderSsh.Control.Queues
import KarpenterProviderSsh.Store.Histories
import KarpenterProviderSsh.Api.Hosts
import KarpenterProviderSsh.Api.StatusWrites
import KarpenterProviderSsh.Cluster.Requests
import KarpenterProviderSsh.Cluster.Worlds
import KarpenterProviderSsh.Cluster.Answers
import KarpenterProviderSsh.Cluster.Records
import KarpenterProviderSsh.Scripts.Contexts
import KarpenterProviderSsh.Scripts.Runners
import KarpenterProviderSsh.Providers.Hosts
import KarpenterProviderSsh.Providers.Instances
import KarpenterProviderSsh.Controllers.HostProbe
import KarpenterProviderSsh.Runs.Jobs
import KarpenterProviderSsh.Runs.Phases
import KarpenterProviderSsh.Runs.Knowledge
import KarpenterProviderSsh.Runs.Following
import KarpenterProviderSsh.Runs.Launching
import KarpenterProviderSsh.Runs.Conforming
import KarpenterProviderSsh.Runs.Changes
import KarpenterProviderSsh.Runs.HostStates
import KarpenterProviderSsh.Runs.Registrations
import KarpenterProviderSsh.Runs.TokenIds
import KarpenterProviderSsh.Runs.Joins
import KarpenterProviderSsh.Runs.Teardowns
import KarpenterProviderSsh.Runs.Retries
import KarpenterProviderSsh.Runs.Guards
import KarpenterProviderSsh.Runs.Collections
import KarpenterProviderSsh.Runs.Orphans
import KarpenterProviderSsh.Runs.WarmPool
import KarpenterProviderSsh.Runs.Dispatches
import KarpenterProviderSsh.Runs.HostKeys
import KarpenterProviderSsh.Runs.Setters
import KarpenterProviderSsh.Runs.Rounds
import KarpenterProviderSsh.Runs.Readmissions
import KarpenterProviderSsh.Runs.Cadence
import KarpenterProviderSsh.Runs.Zombies
import KarpenterProviderSsh.Shell.Patterns
import KarpenterProviderSsh.Codec.Base64
import KarpenterProviderSsh.Codec.Framing
import KarpenterProviderSsh.Shim.Gate
import KarpenterProviderSsh.Shim.Verdicts
import KarpenterProviderSsh.Shim.Envelopes
import KarpenterProviderSsh.Shim.RoundTrips
import KarpenterProviderSsh.Signatures.Verify
import KarpenterProviderSsh.Signatures.Bindings
import KarpenterProviderSsh.Runs.Readiness
import KarpenterProviderSsh.Runs.InstallCache
import KarpenterProviderSsh.Runs.ProviderIDs
import KarpenterProviderSsh.Runs.Visibility
import KarpenterProviderSsh.Providers.InstanceTypes
import KarpenterProviderSsh.Offers.Classes
import KarpenterProviderSsh.Offers.Availability
import KarpenterProviderSsh.Offers.Selection
import KarpenterProviderSsh.Gates.Removals
import KarpenterProviderSsh.Gates.Exactness
import KarpenterProviderSsh.Drift.JoinHash
import KarpenterProviderSsh.Launches.Indictments
import KarpenterProviderSsh.Launches.KubeletFlags
import KarpenterProviderSsh.Templates.Semantics
import KarpenterProviderSsh.Profiles.Validation
import KarpenterProviderSsh.Shell.Lexing
import KarpenterProviderSsh.Exec.Preamble
import KarpenterProviderSsh.Text.Replacements
import KarpenterProviderSsh.Text.Strikes
import KarpenterProviderSsh.Profiles.Environments
import KarpenterProviderSsh.Profiles.Redaction
import KarpenterProviderSsh.Exec.Failures
import KarpenterProviderSsh.Catalogs.Requests
import KarpenterProviderSsh.Controllers.NodeClass
import KarpenterProviderSsh.Catalogs.Worlds
import KarpenterProviderSsh.Catalogs.Readiness
import KarpenterProviderSsh.Catalogs.Deletions
import KarpenterProviderSsh.Gates.Convergence
import KarpenterProviderSsh.CloudProvider.Calls
import KarpenterProviderSsh.CloudProvider.Drifts
