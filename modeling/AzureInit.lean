import AzureInit.Foundation.Utf8Text
import AzureInit.Foundation.FixedBlocks
import AzureInit.Foundation.EffectProgram
import AzureInit.Foundation.Postconditions
import AzureInit.Foundation.Protocols
import AzureInit.Foundation.LockTable
import AzureInit.Foundation.InPlaceSweep
import AzureInit.Foundation.DelimitedText
import AzureInit.Foundation.DecimalText
import AzureInit.Foundation.CalendarTime
import AzureInit.Foundation.Grouping
import AzureInit.Foundation.BytePieces
import AzureInit.Foundation.FallibleState
import AzureInit.Foundation.CsvRecord
import AzureInit.Foundation.SortedMap
import AzureInit.Foundation.TextReader
import AzureInit.Foundation.Pattern
import AzureInit.Kvp.Error
import AzureInit.Kvp.Record
import AzureInit.Kvp.RecordProperties
import AzureInit.Kvp.Handle
import AzureInit.Kvp.HandleProperties
import AzureInit.Kvp.PoolIter
import AzureInit.Kvp.PoolIterProperties
import AzureInit.Kvp.Store
import AzureInit.Kvp.StoreProperties
import AzureInit.Kvp.ListModel
import AzureInit.Kvp.UpdateProperties
import AzureInit.Kvp.ListModelProperties
import AzureInit.Kvp.ListRefinement
import AzureInit.Kvp.FrameProperties
import AzureInit.Kvp.RejectionProperties
import AzureInit.Kvp.FaultProperties
import AzureInit.Kvp.Concurrency
import AzureInit.Kvp.LockDiscipline
import AzureInit.Kvp.SequentialCalls
import AzureInit.Kvp.ClientStages
import AzureInit.Kvp.Linearization
import AzureInit.Kvp.Overtaking
import AzureInit.Kvp.UniqueKeys
import AzureInit.Kvp.Replacement
import AzureInit.Diagnostics.Crates
import AzureInit.Diagnostics.Diagnostic
import AzureInit.Diagnostics.ReferenceCrates
import AzureInit.Diagnostics.Encoding
import AzureInit.Diagnostics.Report
import AzureInit.Diagnostics.Writer
import AzureInit.Diagnostics.WriterProperties
import AzureInit.Diagnostics.CloudInit
import AzureInit.Diagnostics.Reader
import AzureInit.Diagnostics.ReaderProperties
import AzureInit.Diagnostics.ChunkOrder
import AzureInit.Diagnostics.HeaderRoundTrip
import AzureInit.Diagnostics.Emission
import AzureInit.Diagnostics.RoundTrip
import AzureInit.Diagnostics.Accounting
import AzureInit.Diagnostics.Demultiplexing
import AzureInit.Diagnostics.ChunkLoss
import AzureInit.Diagnostics.ChunkFraming
import AzureInit.Diagnostics.ReportEncoding
import AzureInit.Diagnostics.ReportFields
import AzureInit.Diagnostics.ReportQuoting
import AzureInit.Diagnostics.ReportRoundTrip
import AzureInit.Diagnostics.CutReports
import AzureInit.Diagnostics.StoredReports
import AzureInit.Diagnostics.JsonText
import AzureInit.Diagnostics.JsonTextProperties
import AzureInit.Diagnostics.CloudInitReassembly
import AzureInit.Agent.ReportReplacement
import AzureInit.Agent.EncodedReports
import AzureInit.Agent.StoredReports
import AzureInit.Agent.TracingLayer
import AzureInit.Agent.SpanPairing
import AzureInit.Cli.SupportingData
import AzureInit.Cli.Reports
import AzureInit.Provision.SshdConfig
import AzureInit.Provision.SshdConvergence
import AzureInit.Diagnostics.ReportGrammar
import AzureInit.Foundation.ByteScan
import AzureInit.Cli.SupportingDataBytes
import AzureInit.Cli.SupportingDataGrammar
import AzureInit.Diagnostics.CloudInitKeys
import AzureInit.Imds.Query
import AzureInit.Imds.QueryBudget
import AzureInit.Foundation.ProgramRefinement
import AzureInit.Provision.Media
import AzureInit.Provision.MediaSearch
import AzureInit.Provision.MediaRelease
import AzureInit.Diagnostics.TimestampText
import AzureInit.Diagnostics.TimestampAgreement
import AzureInit.Foundation.TextLines
import AzureInit.Cli.TextDump
import AzureInit.Foundation.EditedWalk
import AzureInit.Kvp.IterBookkeeping
import AzureInit.Foundation.DecimalFraction
import AzureInit.Diagnostics.DurationCodec
import AzureInit.Cli.DiagnosticText
import AzureInit.Kvp.RecordFraming
import AzureInit.Configuration.Settings
import AzureInit.Foundation.Fallback
import AzureInit.Provision.Host
import AzureInit.Provision.Accounts
import AzureInit.Provision.SshKeys
import AzureInit.Provision.Provisioning
import AzureInit.Foundation.FoundedLogs
import AzureInit.Provision.HostLogs
import AzureInit.Provision.ProvisionOrder
import AzureInit.Provision.ProvisionGrounds
import AzureInit.Foundation.CrashSafety
import AzureInit.Provision.HostFiles
import AzureInit.Foundation.ObservedRuns
import AzureInit.Provision.SshKeysProperties
import AzureInit.Provision.SshdRefinement
import AzureInit.Agent.BootRequests
import AzureInit.Agent.VmId
import AzureInit.Agent.ProvisioningStatus
import AzureInit.Agent.Boot
import AzureInit.Agent.Attempt
import AzureInit.Agent.BootOutcome
import AzureInit.Agent.BootGrounds
import AzureInit.Agent.VmIdentity
import AzureInit.Agent.BootFiles
import AzureInit.Agent.BootReports
import AzureInit.Agent.BootHistory
import AzureInit.Agent.MarkerRemoval
import AzureInit.Diagnostics.JsonRoundTrip
import AzureInit.Diagnostics.RecordOrder
import AzureInit.Cli.EditedPools
import AzureInit.Kvp.Staleness
import AzureInit.Agent.Telemetry
import AzureInit.Agent.StoredTelemetry
import AzureInit.Agent.TelemetryPayloads
import AzureInit.Agent.Subscriber
import AzureInit.Foundation.RetrySchedule
import AzureInit.Imds.RequestDecision
import AzureInit.Imds.QueryOutcome
