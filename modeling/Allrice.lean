import Allrice.Transaction
import Allrice.Runs
import Allrice.EventLog
import Allrice.Table
import Allrice.JsString
import Allrice.RuntimeIdentity
import Allrice.RuntimeOperation
import Allrice.RuntimeDispatch
import Allrice.BridgeJournal
import Allrice.JournalRecord
import Allrice.JournalMachine
import Allrice.JournalRun
import Allrice.JournalWrites
import Allrice.Interruptible
import Allrice.ChangesetExecutor
import Allrice.ChangesetSafety
import Allrice.ChangesetReport
import Allrice.ChangesetRestart
import Allrice.LedgerTables
import Allrice.RuntimeLedger
import Allrice.LedgerReceipts
import Allrice.LedgerWrites
import Allrice.LedgerMachine
import Allrice.LedgerLog
import Allrice.LedgerStart
import Allrice.LedgerBudget
import Allrice.OutputLog
import Allrice.OutputDelivery
import Allrice.SandboxBudget
import Allrice.SandboxExchange
import Allrice.Utf8Stream
import Allrice.TextLines
import Allrice.Pattern
import Allrice.CommandOutput
import Allrice.CommandOutputRun
import Allrice.CommandOutputChunks
import Allrice.CommandOutputKeys
import Allrice.DigitText
import Allrice.JsNumber
import Allrice.NumberText
import Allrice.Splice
import Allrice.Utf8Text
import Allrice.LocalPythonArchive
import Allrice.ArchiveHeaders
import Allrice.ArchiveRecords
import Allrice.ArchiveRoundTrip
import Allrice.JsValue
import Allrice.JsonText
import Allrice.JsonRoundTrip
import Allrice.CanonicalJson
import Allrice.TaskClock
import Allrice.TaskClockRun
import Allrice.ChatStream
import Allrice.DeltaBatcherRun
import Allrice.FileOrganizationUndo
import Allrice.DeliverySound
import Allrice.DeliveryOrder
import Allrice.FileCommandRuns
import Allrice.FolderTriggerRuns
import Allrice.FileArchiveRoundTrip
import Allrice.RunAdmissionSafety
import Allrice.SdkRootRuns
import Allrice.DshSteerRuns
import Allrice.DshWaitRuns
import Allrice.QuestionCardRuns
import Allrice.UpdateInstallerRuns
import Allrice.QueueWakeupRuns
import Allrice.CheckedDeliveryRuns
import Allrice.SandboxCapacity
import Allrice.RuntimePolicyApproval
import Allrice.BridgeGatewayTotals
import Allrice.InputArchive
import Allrice.TlsClientHelloSound
import Allrice.ProjectLogs
import Allrice.LocalPythonAcceptanceExact
import Allrice.ProjectPreviewRuns
import Allrice.ArchivePathOrder
import Allrice.ModelTransport
import Allrice.CapabilityRouterChoice
import Allrice.ProjectCacheBounds
import Allrice.FinalDeliveryText
import Allrice.ContainerLoopback
import Allrice.LiveSubagentsVerified
import Allrice.LocalServiceJournal
import Allrice.LocalServiceRuns
import Allrice.LocalFileSave
import Allrice.LocalFileSaved
import Allrice.UpdateZip
import Allrice.UpdateZipSound
import Allrice.BridgeTransport
import Allrice.BridgeTransportRuns
import Allrice.BridgeTransportOnce
import Allrice.Authorization
import Allrice.LeaseLockRetry
import Allrice.DshWorkerClose
import Allrice.DshWorkerClosed
import Allrice.TimeSpans
import Allrice.DshRunTiming
import Allrice.DshRunTimingSums
import Allrice.DshRunTimingReport
import Allrice.Regex
import Allrice.RecurringTaskIntent
import Allrice.QuotedArguments
import Allrice.Calendar
import Allrice.MonthlyTarget
import Allrice.MonthlyTargetExact
import Allrice.NativeRecurring
import Allrice.NativeRecurringSound
import Allrice.NativeRecurringRuns
import Allrice.NativeRecurringOnce
import Allrice.NativeWriter
import Allrice.RunningTotal
import Allrice.InvestmentEstimate
import Allrice.InvestmentExact
import Allrice.DocumentTextWindows
import Allrice.Utf8Strict
import Allrice.DocumentTextPage
import Allrice.DocumentTextReading
import Allrice.DocumentTextPaging
import Allrice.FormulaCache
import Allrice.FormulaCacheCounts
