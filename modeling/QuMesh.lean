import QuMesh.App.Accounts
import QuMesh.App.AsciicastRecorder
import QuMesh.App.BackupCodec
import QuMesh.App.BackupController
import QuMesh.App.BatchController
import QuMesh.App.BatchRunner
import QuMesh.App.BusyFlows
import QuMesh.App.CertModel
import QuMesh.App.CiraPolicy
import QuMesh.App.ComputerModel
import QuMesh.App.ConfigStore
import QuMesh.App.Consent
import QuMesh.App.Controllers
import QuMesh.App.DetailsCommands
import QuMesh.App.DetailsRefresh
import QuMesh.App.DeviceCerts
import QuMesh.App.KvmViewer
import QuMesh.App.Migrator
import QuMesh.App.MjpegMovRecorder
import QuMesh.App.OcrPrompt
import QuMesh.App.RowReplacement
import QuMesh.App.SecretCodec
import QuMesh.App.SetupBinController
import QuMesh.Kvm.TileInt
import QuMesh.Lib.Base64
import QuMesh.Lib.Boxes
import QuMesh.Lib.FirstHit
import QuMesh.Lib.Flows
import QuMesh.Lib.Framing
import QuMesh.Lib.Hash
import QuMesh.Lib.Hex
import QuMesh.Lib.Holder
import QuMesh.Lib.Inbox
import QuMesh.Lib.JsObject
import QuMesh.Lib.Json
import QuMesh.Lib.JsonText
import QuMesh.Lib.Pieces
import QuMesh.Lib.Promises
import QuMesh.Lib.Rounds
import QuMesh.Lib.Run
import QuMesh.Lib.Schedules
import QuMesh.Lib.Strings
import QuMesh.Lib.Text
import QuMesh.Lib.Utf8
import QuMesh.Lib.Uuid
import QuMesh.Lib.Watch
import QuMesh.Lib.Xml
import QuMesh.Proofs.AccountDigests
import QuMesh.Proofs.AccountRows
import QuMesh.Proofs.AsciicastChunks
import QuMesh.Proofs.AuditPaging
import QuMesh.Proofs.AuditRecords
import QuMesh.Proofs.BackupRoundTrip
import QuMesh.Proofs.BatchRounds
import QuMesh.Proofs.BatchTargets
import QuMesh.Proofs.BootOrder
import QuMesh.Proofs.BootTlvWalk
import QuMesh.Proofs.BusyCounter
import QuMesh.Proofs.CallbackOnce
import QuMesh.Proofs.Cancellation
import QuMesh.Proofs.CellLook
import QuMesh.Proofs.ChallengeText
import QuMesh.Proofs.CiraIdentity
import QuMesh.Proofs.ClientTurns
import QuMesh.Proofs.ComputerSaves
import QuMesh.Proofs.ConsentKept
import QuMesh.Proofs.ConsentRound
import QuMesh.Proofs.ControllerSteps
import QuMesh.Proofs.CsiForms
import QuMesh.Proofs.DeferredOpen
import QuMesh.Proofs.DeferredRefresh
import QuMesh.Proofs.DetailsSteps
import QuMesh.Proofs.DigestCounter
import QuMesh.Proofs.DigestFields
import QuMesh.Proofs.EditIdentity
import QuMesh.Proofs.Enumeration
import QuMesh.Proofs.EscapeResync
import QuMesh.Proofs.EventLogPaging
import QuMesh.Proofs.FailureVisible
import QuMesh.Proofs.FilterAddresses
import QuMesh.Proofs.FormatAgreement
import QuMesh.Proofs.HandshakeOrder
import QuMesh.Proofs.HostKeyGate
import QuMesh.Proofs.HttpReply
import QuMesh.Proofs.IderFailure
import QuMesh.Proofs.IderStream
import QuMesh.Proofs.ImportIds
import QuMesh.Proofs.ImportPriority
import QuMesh.Proofs.KeyPairing
import QuMesh.Proofs.KeyRelease
import QuMesh.Proofs.KvmChunks
import QuMesh.Proofs.KvmFailure
import QuMesh.Proofs.KvmRequests
import QuMesh.Proofs.KvmStall
import QuMesh.Proofs.LegacyEnvelopes
import QuMesh.Proofs.LegacyStrings
import QuMesh.Proofs.LineHtml
import QuMesh.Proofs.MigrationFiles
import QuMesh.Proofs.MovSamples
import QuMesh.Proofs.ParallelJoin
import QuMesh.Proofs.ParameterOrder
import QuMesh.Proofs.PinGate
import QuMesh.Proofs.PointerFollows
import QuMesh.Proofs.PumpRelay
import QuMesh.Proofs.ReadToClose
import QuMesh.Proofs.RecoveryPins
import QuMesh.Proofs.RectLimits
import QuMesh.Proofs.ReplyOutcome
import QuMesh.Proofs.ReplyTruth
import QuMesh.Proofs.RequestQueue
import QuMesh.Proofs.RequestsServed
import QuMesh.Proofs.ResizeRepaint
import QuMesh.Proofs.RowSurvival
import QuMesh.Proofs.ScanRows
import QuMesh.Proofs.ScsiAllocation
import QuMesh.Proofs.ScsiCompletion
import QuMesh.Proofs.ScsiRead
import QuMesh.Proofs.SecretSurvival
import QuMesh.Proofs.SetupBinRoundTrip
import QuMesh.Proofs.SgrGroups
import QuMesh.Proofs.SoapTrees
import QuMesh.Proofs.SolFraming
import QuMesh.Proofs.StalledFrames
import QuMesh.Proofs.StreamHandover
import QuMesh.Proofs.TargetRange
import QuMesh.Proofs.TerminalGrid
import QuMesh.Proofs.TileBounds
import QuMesh.Proofs.TileDecode
import QuMesh.Proofs.TilePalette
import QuMesh.Proofs.TransportRelease
import QuMesh.Proofs.TrustGate
import QuMesh.Proofs.TrustResume
import QuMesh.Proofs.TunnelLifecycle
import QuMesh.Proofs.UnreadFile
import QuMesh.Proofs.Utf8Resync
import QuMesh.Proofs.WatchdogIds
import QuMesh.Redir.Client
import QuMesh.Redir.Sol
import QuMesh.Rmcp.Scanner
import QuMesh.Rmcp.TargetRange
import QuMesh.Terminal.Html
import QuMesh.Wsman.AuditLog
import QuMesh.Wsman.BootActions
import QuMesh.Wsman.BootTlv
import QuMesh.Wsman.Calls
import QuMesh.Wsman.CertStore
import QuMesh.Wsman.EventLog
import QuMesh.Wsman.HeaderFilters
import QuMesh.Wsman.Invocations
import QuMesh.Wsman.Operations
import QuMesh.Wsman.ParallelReads
import QuMesh.Wsman.Reads
import QuMesh.Wsman.RemoteAccess
import QuMesh.Wsman.RowOperations
import QuMesh.Wsman.SetupBin
import QuMesh.Wsman.Soap
import QuMesh.Wsman.UserAccounts
import QuMesh.Wsman.WatchdogIds
