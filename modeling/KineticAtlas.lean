import KineticAtlas.Library.Texts
import KineticAtlas.Library.Runs
import KineticAtlas.Library.Ledger
import KineticAtlas.Library.Lease
import KineticAtlas.Types
import KineticAtlas.HostSplit
import KineticAtlas.NodeLoop
import KineticAtlas.NodeAccounting
import KineticAtlas.PeerLookups
import KineticAtlas.SwarmManager
import KineticAtlas.Library.Utf8
import KineticAtlas.Library.Files
import KineticAtlas.Library.Paths
import KineticAtlas.Library.FirstWins
import KineticAtlas.Registry
import KineticAtlas.RegistryLoad
import KineticAtlas.SwarmConfig
import KineticAtlas.ProxyHandler
import KineticAtlas.Serving
import KineticAtlas.Resolution
import KineticAtlas.Updater
import KineticAtlas.UpdaterWrites
import KineticAtlas.UpdaterSync
import KineticAtlas.Library.Search
import KineticAtlas.Library.Handles
import KineticAtlas.SwarmLifetime
import KineticAtlas.DnsTree
import KineticAtlas.DnsAnswers
import KineticAtlas.DnsCuts
import KineticAtlas.RootRecords
import KineticAtlas.AtlasTable
import KineticAtlas.AtlasScripts
import KineticAtlas.IssueForm
import KineticAtlas.HostRoundTrip
import KineticAtlas.Failover
import KineticAtlas.ZoneFormat
import KineticAtlas.RegistrationBot
import KineticAtlas.ConfigFormat
import KineticAtlas.RegistrationRuns
import KineticAtlas.Liveness
import KineticAtlas.UptimeRule
import KineticAtlas.Library.Locks
import KineticAtlas.HotReload
import KineticAtlas.PacMirror
import KineticAtlas.DeadSwarms
import KineticAtlas.RealNames
import KineticAtlas.DirectoryLoad
import KineticAtlas.UpdaterItems
import KineticAtlas.DnsLimits
import KineticAtlas.Library.UrlPaths
import KineticAtlas.GatewayPaths
import KineticAtlas.Library.IpAddresses
import KineticAtlas.BotNetwork
import KineticAtlas.AtlasRows
import KineticAtlas.DaemonConfig
import KineticAtlas.Provenance
import KineticAtlas.RegistrationServing
import KineticAtlas.Library.Dialogues
import KineticAtlas.HandlerTask
import KineticAtlas.RequestSystem
import KineticAtlas.RequestChannels
import KineticAtlas.RequestOrigins
import KineticAtlas.ErrorResponses
import KineticAtlas.RegistryHistory
import KineticAtlas.RepositoryRuns
import KineticAtlas.Library.Budget
import KineticAtlas.NodeBootstrap
import KineticAtlas.IdleSwarms
import KineticAtlas.Library.Streaks
import KineticAtlas.UpdaterSchedule
import KineticAtlas.RequestStages
import KineticAtlas.RequestProgress
import KineticAtlas.RequestDelivery
import KineticAtlas.MonitorProbes
import KineticAtlas.WholeDaemon
import KineticAtlas.RequestForwarding
