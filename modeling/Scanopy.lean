import Scanopy.Discovery.LiveSessions
import Scanopy.Discovery.Dispatch
import Scanopy.Discovery.Historical
import Scanopy.Discovery.Queues
import Scanopy.Discovery.Cancellation
import Scanopy.Discovery.SnapshotRelease
import Scanopy.Discovery.Locks
import Scanopy.Discovery.ScheduledJobs
import Scanopy.Daemon.Confirmation
import Scanopy.Daemon.Poll
import Scanopy.Daemon.Manager
import Scanopy.Snapshots.Isomorphism
import Scanopy.Credentials.Ownership
import Scanopy.Credentials.SingleEndpoint
import Scanopy.Topology.Ambiguity
import Scanopy.Topology.Evidence
import Scanopy.Subnets.Interleaving
import Scanopy.Discovery.Bookkeeping
import Scanopy.Hosts.Versions
import Scanopy.Digest.Crossings
import Scanopy.Hosts.VlanLinks
import Scanopy.Hosts.Sightings
import Scanopy.Snmp.StaleAnswers
import Scanopy.Snmp.IfTables
import Scanopy.Viewer.Loads
import Scanopy.Viewer.Conservation
import Scanopy.Graph.Containment
import Scanopy.Snmp.ManagementIndexes
import Scanopy.Snmp.Forwarding
import Scanopy.Snmp.LocalPorts
import Scanopy.Services.BindingCoverage
import Scanopy.Topology.Reciprocal
import Scanopy.Graph.Hiding
import Scanopy.Graph.Settled
import Scanopy.Interfaces.Matching
import Scanopy.Credentials.Overrides
import Scanopy.Credentials.ProbeResults
import Scanopy.Daemon.PendingHosts
import Scanopy.Services.Equality
import Scanopy.Hosts.Consolidated
import Scanopy.Hosts.Upserts
import Scanopy.Shared.BulkInserts
import Scanopy.Storage.Conjunctions
import Scanopy.Hosts.PortTransfers
import Scanopy.Daemon.ArpLosses
import Scanopy.Daemon.ScanCounts
import Scanopy.Daemon.ScanBudgets
import Scanopy.Daemon.PinnedCredentials
import Scanopy.Daemon.UnifiPorts
import Scanopy.Daemon.InstantOnPorts
import Scanopy.Daemon.VersionPolicy
import Scanopy.Daemon.CredentialWarnings
import Scanopy.Graph.DependencyEdges
import Scanopy.Graph.Adjacencies
import Scanopy.Graph.ContainerEdges
import Scanopy.Dependencies.Service
import Scanopy.Graph.MermaidExport
import Scanopy.Viewer.StructureKey
import Scanopy.Viewer.VisibleNodes
