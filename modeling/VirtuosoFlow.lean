import VirtuosoFlow.Base.Run
import VirtuosoFlow.Tunnel.Proposal
import VirtuosoFlow.Tunnel.Permissions
import VirtuosoFlow.Tunnel.Transaction
import VirtuosoFlow.Tunnel.Job
import VirtuosoFlow.Tunnel.Event
import VirtuosoFlow.Tunnel.Result
import VirtuosoFlow.Tunnel.Artifact
import VirtuosoFlow.Tunnel.Daemon
import VirtuosoFlow.Tunnel.ApprovalGate
import VirtuosoFlow.Tunnel.Agreement
import VirtuosoFlow.Tunnel.Freshness
import VirtuosoFlow.Tunnel.Cancellation
import VirtuosoFlow.Base.Grid
import VirtuosoFlow.Plugin.Route
import VirtuosoFlow.Plugin.Routed
import VirtuosoFlow.Plugin.RouteQuality
import VirtuosoFlow.Base.Slots
import VirtuosoFlow.Base.Journal
import VirtuosoFlow.Plugin.Database
import VirtuosoFlow.Plugin.Schematic
import VirtuosoFlow.Plugin.Rpc
import VirtuosoFlow.Plugin.Transaction
import VirtuosoFlow.Tunnel.Replies
import VirtuosoFlow.Plugin.Recorded
import VirtuosoFlow.Plugin.FailedApply
import VirtuosoFlow.Plugin.Rollback
import VirtuosoFlow.Plugin.ParamHistory
import VirtuosoFlow.Plugin.LayoutRollback
import VirtuosoFlow.Plugin.FailedEdit
import VirtuosoFlow.Plugin.RollbackKinds
import VirtuosoFlow.Plugin.LayoutTruth
import VirtuosoFlow.Plugin.ApplyAgreement
import VirtuosoFlow.Tunnel.StoredProposals
import VirtuosoFlow.Plugin.ApprovedApplies
import VirtuosoFlow.Base.WriteBehind
import VirtuosoFlow.Tunnel.Shelf
import VirtuosoFlow.Tunnel.DiskAgreement
import VirtuosoFlow.Base.Permit
import VirtuosoFlow.Tunnel.SingleRun
import VirtuosoFlow.Tunnel.RunnerEnds
import VirtuosoFlow.Tunnel.ActionRuns
import VirtuosoFlow.JsonDumps
import VirtuosoFlow.Base.Numbered
import VirtuosoFlow.Tunnel.EventFile
import VirtuosoFlow.Tunnel.EventClient
import VirtuosoFlow.JsonTrailing
import VirtuosoFlow.Tunnel.EventCrash
import VirtuosoFlow.Base.Monitor
import VirtuosoFlow.Tunnel.EventWait
import VirtuosoFlow.Plugin.Sexpr
import VirtuosoFlow.Plugin.Connectivity
import VirtuosoFlow.Plugin.ConnectivityDiff
import VirtuosoFlow.Tunnel.Connection
import VirtuosoFlow.Tunnel.Provenance
import VirtuosoFlow.Base.StableSort
import VirtuosoFlow.Tunnel.NewestDone
import VirtuosoFlow.Plugin.Blame
import VirtuosoFlow.Base.Scientific
import VirtuosoFlow.JsonDecimal
import VirtuosoFlow.Plugin.Coordinates
import VirtuosoFlow.Tunnel.Updates
import VirtuosoFlow.Tunnel.Sweep
import VirtuosoFlow.Tunnel.ErrorAnswers
import VirtuosoFlow.Base.PosixPath
import VirtuosoFlow.Tunnel.Written
import VirtuosoFlow.Tunnel.Containment
import VirtuosoFlow.Tunnel.Home
import VirtuosoFlow.Tunnel.Restart
import VirtuosoFlow.Tunnel.HomeRuns
import VirtuosoFlow.Tunnel.Competition
import VirtuosoFlow.Tunnel.Announcements
import VirtuosoFlow.Tunnel.NetlistRequests
import VirtuosoFlow.Tunnel.Outcomes
import VirtuosoFlow.Plugin.Servicing
import VirtuosoFlow.Tunnel.Sessions
import VirtuosoFlow.Tunnel.SessionIdentity
import VirtuosoFlow.Base.Lease
import VirtuosoFlow.Tunnel.Heartbeats
import VirtuosoFlow.Tunnel.EventOrder
import VirtuosoFlow.Plugin.EncoderText
import VirtuosoFlow.Plugin.ReplyText
import VirtuosoFlow.Tunnel.Archive
import VirtuosoFlow.Tunnel.ArchiveLinks
import VirtuosoFlow.Tunnel.ArchiveSteps
import VirtuosoFlow.Tunnel.StoredHistory
import VirtuosoFlow.Tunnel.PermissionCover
import VirtuosoFlow.Tunnel.Verdicts
import VirtuosoFlow.Base.Keyed
import VirtuosoFlow.Plugin.GeomDiff
import VirtuosoFlow.Plugin.TermPoint
import VirtuosoFlow.Base.ShellWords
import VirtuosoFlow.Plugin.CommandLine
import VirtuosoFlow.Plugin.RestoredValues
import VirtuosoFlow.Base.Separated
import VirtuosoFlow.Plugin.DeckPath
import VirtuosoFlow.Plugin.TopologyDiff
import VirtuosoFlow.Tunnel.Supervisor
import VirtuosoFlow.Base.Files
import VirtuosoFlow.Plugin.SharedFiles
import VirtuosoFlow.Plugin.PlacementDiff
import VirtuosoFlow.Base.BreadthFirst
import VirtuosoFlow.Plugin.MazeSearch
import VirtuosoFlow.Plugin.GridCover
import VirtuosoFlow.Plugin.Ownership
import VirtuosoFlow.Base.Delimited
import VirtuosoFlow.Plugin.Fingerprint
import VirtuosoFlow.Plugin.Preflight
import VirtuosoFlow.Plugin.SimRuns
import VirtuosoFlow.Plugin.ReusedResults
import VirtuosoFlow.Plugin.DeckReplies
import VirtuosoFlow.Plugin.AutoRenames
import VirtuosoFlow.Plugin.LayoutVsSchematic
import VirtuosoFlow.Plugin.RollbackOutcome
import VirtuosoFlow.Base.Lines
import VirtuosoFlow.Plugin.EventBridge
import VirtuosoFlow.Plugin.EventPipeline
import VirtuosoFlow.Plugin.HelperCall
import VirtuosoFlow.Base.Runs
import VirtuosoFlow.Tunnel.SignalMetrics
import VirtuosoFlow.Tunnel.DoneResults
import VirtuosoFlow.Plugin.CallText
import VirtuosoFlow.Plugin.SplicedCalls
import VirtuosoFlow.Base.ShellCommand
import VirtuosoFlow.Plugin.VcliExec
import VirtuosoFlow.Tunnel.RunRecords
import VirtuosoFlow.Tunnel.MetricsText
import VirtuosoFlow.Plugin.SpectreWrapper
import VirtuosoFlow.Plugin.SimulatedResults
import VirtuosoFlow.Tunnel.LatestContext
import VirtuosoFlow.Plugin.TestbenchLint
import VirtuosoFlow.Plugin.DesignContext
import VirtuosoFlow.Plugin.ContextExport
