import Icode.PyText
import Icode.Sha256
import Icode.PyFloat
import Icode.Json
import Icode.JsonDumps
import Icode.JsonLoads
import Icode.Checks
import Icode.PathTree
import Icode.SandboxPolicy
import Icode.Transition
import Icode.WriteLease
import Icode.ConnectRequest
import Icode.Publish
import Icode.NetworkLease
import Icode.NetworkAuthority
import Icode.Autonomy
import Icode.AgentMirror
import Icode.HashChain
import Icode.PyRepr
import Icode.TicketState
import Icode.ExecutionMirror
import Icode.History
import Icode.ExecutionRules
import Icode.Base64
import Icode.JsonLength
import Icode.PurePath
import Icode.RelayStreams
import Icode.RunnerProtocol
import Icode.AgentLoop
import Icode.AgentTeam
import Icode.ThreadedCapture
import Icode.AgentRules
import Icode.AgentRuns
import Icode.RunnerPipe
import Icode.ReadEvents
import Icode.EngineeringReceipt
import Icode.Anchors
import Icode.PackRules
import Icode.PackTotality
import Icode.MetadataMirror
import Icode.BirthRules
import Icode.BindingRules
import Icode.AgentHistory
import Icode.ConnectionCallbacks
import Icode.ExpirySweep
import Icode.ExtensionMerge
import Icode.AutonomyProcess
import Icode.StaleRecovery
import Icode.WorkerReservation
import Icode.IntentReplay
import Icode.PackSigning
import Icode.AnchorAttach
import Icode.JsonNames
import Icode.PyValue
import Icode.Acp
import Icode.Approvals
import Icode.ConnectScope
import Icode.Hooks
import Icode.McpClient
import Icode.NoProgress
import Icode.TaskResource
import Icode.TaskScope
import Icode.WebGate
import Icode.ReceiptRules
import Icode.RepairFingerprint
import Icode.ConnectGrammar
import Icode.PositiveLoopback
import Icode.PreparedStep
import Icode.GoTests
import Icode.VerificationLedger
import Icode.CompactionSize
import Icode.PolicyWire
import Icode.JsonPrescan
import Icode.EdField
import Icode.EdCanonical
import Icode.RegionForm
import Icode.NetworkDestination
import Icode.ArtifactSnapshot
import Icode.WorkspaceSnapshot
import Icode.Sha1
import Icode.GitTree
import Icode.WorktreeTree
import Icode.Utf16
import Icode.DirectoryPages
import Icode.PyRegex
import Icode.GuardCommand
import Icode.JoinedText
import Icode.CommandForms
import Icode.AllowedCommands
import Icode.Recovery
import Icode.McpFrames
import Icode.ModelReview
import Icode.MandatoryBrief
import Icode.PackDigest
import Icode.GraphSearch
import Icode.ChainSteps
import Icode.Connectors
import Icode.GitStatus
import Icode.GitStatusFormat
import Icode.Occurrences
import Icode.EditFile
import Icode.CompleteReads
import Icode.ReasoningTrace
import Icode.ByteFields
import Icode.DecimalText
import Icode.StartupAccessList
import Icode.StartupSecurity
import Icode.Effects
import Icode.StartupPin
import Icode.StartupOwner
