import MachineBridge.Relay.HandshakeRun
import MachineBridge.Recovery.MissingProof
import MachineBridge.Pending.SettlementDeadline
import MachineBridge.Pending.Redelivery
import MachineBridge.Security.NonceStore
import MachineBridge.Files.MutationCoordinator
import MachineBridge.Authority.Revocations
import MachineBridge.Audit.Storage
import MachineBridge.Tasks.StoreRun
import MachineBridge.Jobs.Pruning
import MachineBridge.Jobs.TerminalRun
import MachineBridge.Pending.ReadyRun
import MachineBridge.Files.PatchRun
import MachineBridge.Git.Content
import MachineBridge.Daemon.AlarmRun
import MachineBridge.Daemon.HandoverSafety
import MachineBridge.Mcp.CancelsRequests
import MachineBridge.Resources.TransactionRun
import MachineBridge.Resources.LeaseRun
import MachineBridge.Activation.Outcome
import MachineBridge.Relay.FailoverRun
import MachineBridge.Locks.ProcessLock
import MachineBridge.State.RecoveryRun
import MachineBridge.Browser.RoutingRun
import MachineBridge.Output.BoundedOutput
import MachineBridge.Files.ReadSequence
import MachineBridge.Files.TextEditExact
import MachineBridge.Files.PatchRendering
import MachineBridge.Files.UpdateHunksExact
import MachineBridge.Resources.LeaseIncrement
import MachineBridge.Resources.ElasticAdmission
import MachineBridge.Resources.WaiterFairness
import MachineBridge.Stdio.LineReader
import MachineBridge.Stdio.WriterRun
import MachineBridge.Git.LogFraming
import MachineBridge.Symbols.SanitizedLines
import MachineBridge.Mcp.MonitorClaimRun
import MachineBridge.Search.SearchOneFile
import MachineBridge.Jobs.DependencyRun
import MachineBridge.Relay.PollingPace
import MachineBridge.Relay.ExchangeHead
import MachineBridge.Schemas.ArgumentsAccepted
import MachineBridge.Jobs.OutputRedactionSafety
import MachineBridge.Output.ProcessStream
import MachineBridge.Security.Transcripts
import MachineBridge.Jobs.Substitution
import MachineBridge.Jobs.RunnerRun
import MachineBridge.Mcp.ResponseProxy
import MachineBridge.Mcp.Subscriptions
import MachineBridge.ComputerUse.Verification
import MachineBridge.ComputerUse.SnapshotStore
