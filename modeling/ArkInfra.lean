import ArkInfra.Lib.BufferedLog
import ArkInfra.Lib.HashMap
import ArkInfra.Lib.BoundedMap
import ArkInfra.Lib.Run
import ArkInfra.Lib.Interleave
import ArkInfra.Lib.Outbox
import ArkInfra.Lib.Split
import ArkInfra.Lib.Text
import ArkInfra.Lib.Utf8
import ArkInfra.Lib.Glob
import ArkInfra.Lib.TextFile
import ArkInfra.Lib.Frame
import ArkInfra.Lib.Json
import ArkInfra.Lib.JsonText
import ArkInfra.Lib.Binary64
import ArkInfra.Lib.Binary64Text
import ArkInfra.Lib.Yaml
import ArkInfra.Lib.YamlDoc
import ArkInfra.Lib.Path
import ArkInfra.Lib.FileTree
import ArkInfra.Lib.FileSystem
import ArkInfra.Lib.SlidingWindow
import ArkInfra.Lib.DepthFirst
import ArkInfra.Lib.StableSort
import ArkInfra.Lib.IpAddr
import ArkInfra.Lib.Cooldown
import ArkInfra.Lib.Hysteresis
import ArkInfra.Lib.Interact
import ArkInfra.Lib.Lowercase
import ArkInfra.Lib.Worker
import ArkInfra.Lib.Disk
import ArkInfra.Lib.RingBuffer
import ArkInfra.Core.Event
import ArkInfra.Core.EventJson
import ArkInfra.Core.EventValue
import ArkInfra.Core.Signal
import ArkInfra.Core.SignalWindow
import ArkInfra.Core.Graph
import ArkInfra.Core.GraphStep
import ArkInfra.Core.EdgeIndex
import ArkInfra.Core.EdgeLife
import ArkInfra.Core.NodeKinds
import ArkInfra.Core.NodeClocks
import ArkInfra.Core.ResourceMetrics
import ArkInfra.Core.ErrorReports
import ArkInfra.Core.ConcurrentCleanup
import ArkInfra.Core.ProcessRecord
import ArkInfra.Core.ProcessLife
import ArkInfra.Core.ProcessExit
import ArkInfra.Core.ReportedProcess
import ArkInfra.Core.RootCause
import ArkInfra.Core.Blame
import ArkInfra.Core.Metadata
import ArkInfra.Core.Staleness
import ArkInfra.Core.Cleanup
import ArkInfra.Core.Restart
import ArkInfra.Core.Rule
import ArkInfra.Core.RuleMatcher
import ArkInfra.Core.PatternCursor
import ArkInfra.Core.RuleEngine
import ArkInfra.Core.SignalStays
import ArkInfra.Core.SignalAge
import ArkInfra.Core.RuleYaml
import ArkInfra.Core.RuleMigrate
import ArkInfra.Core.RuleFiles
import ArkInfra.Core.RulePlaces
import ArkInfra.Core.RuleLoad
import ArkInfra.Core.RuleLoadOrder
import ArkInfra.Core.RuleMigrateRun
import ArkInfra.Core.RuleMigrateIds
import ArkInfra.Core.RuleMigrateDir
import ArkInfra.Core.RuleMigrateOptions
import ArkInfra.Core.RuleMigrateAgain
import ArkInfra.Agent.Forwarder
import ArkInfra.Agent.EdgeRollup
import ArkInfra.Agent.HubCoverage
import ArkInfra.Agent.RetryQueue
import ArkInfra.Agent.Ipc
import ArkInfra.Agent.ProcessGroup
import ArkInfra.Agent.CauseText
import ArkInfra.Agent.Executor
import ArkInfra.Agent.Scene
import ArkInfra.Agent.SceneRuns
import ArkInfra.Agent.FixEngine
import ArkInfra.Agent.IpcClient
import ArkInfra.Agent.ArkFix
import ArkInfra.Agent.AuditLog
import ArkInfra.Hub.Connections
import ArkInfra.Hub.ConnectionEnd
import ArkInfra.Hub.Dedup
import ArkInfra.Hub.Ingest
import ArkInfra.Hub.Wal
import ArkInfra.Hub.WalRotation
import ArkInfra.Hub.WalRotateFailure
import ArkInfra.Hub.LogOrder
import ArkInfra.Hub.Replay
import ArkInfra.Hub.WalTorn
import ArkInfra.Hub.Recovery
import ArkInfra.Hub.EventMessage
import ArkInfra.Hub.ClusterWhy
import ArkInfra.Hub.ProcessIdentity
import ArkInfra.Hub.K8sController
import ArkInfra.Hub.K8sNodeName
import ArkInfra.Hub.Operator
import ArkInfra.Hub.OperatorRuns
import ArkInfra.Hub.ExecuteGuard
import ArkInfra.Hub.CooldownRace
import ArkInfra.Hub.Diagnose
import ArkInfra.Hub.DiagnoseLimits
import ArkInfra.Hub.RecentEvents
import ArkInfra.Hub.Incidents
import ArkInfra.Agent.CommandListener
import ArkInfra.Agent.ClusterFix
import ArkInfra.Agent.Diagnosis
import ArkInfra.Agent.Doctor
import ArkInfra.Probe.Retransmit
import ArkInfra.Probe.ProbeStream
