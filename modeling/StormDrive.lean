import StormDrive.Text
import StormDrive.Drive
import StormDrive.InUse
import StormDrive.Steps
import StormDrive.Discovery
import StormDrive.MountedPaths
import StormDrive.Contents
import StormDrive.Blockers
import StormDrive.Entries
import StormDrive.Interleave.Machine
import StormDrive.Daemon.Jobs
import StormDrive.Daemon.Changes
import StormDrive.Daemon.Records
import StormDrive.Interleave.Alone
import StormDrive.Daemon.Ops
import StormDrive.Daemon.Inventory
import StormDrive.Membership
import StormDrive.Daemon.Operations
import StormDrive.Daemon.Fleet
import StormDrive.Daemon.Tasks
import StormDrive.Daemon.Scope
import StormDrive.Daemon.Sections
import StormDrive.Daemon.Holds
import StormDrive.Daemon.InHand
import StormDrive.Unnamed
import StormDrive.Cancellation
import StormDrive.Restart
import StormDrive.Leaving
import StormDrive.Daemon.Rules
import StormDrive.Pushed
import StormDrive.SystemDrives
import StormDrive.Daemon.Drains
import StormDrive.CancelledDrains
import StormDrive.Drained
import StormDrive.FailingDrives
import StormDrive.Slabs
import StormDrive.Interleave.Runs
import StormDrive.Interleave.Feed
import StormDrive.Events
import StormDrive.Interleave.Lines
import StormDrive.History
import StormDrive.Counters
import StormDrive.Findings
import StormDrive.Interleave.StableSort
import StormDrive.SystemFile
import StormDrive.Interleave.MergePatch
import StormDrive.Policy
import StormDrive.PolicyPass
import StormDrive.DriveOperation
import StormDrive.Poller
import StormDrive.Interleave.Oracle
import StormDrive.DrivePatch
import StormDrive.ShelfFirmware
import StormDrive.DriveFirmware
import StormDrive.FormatFirst
import StormDrive.Readers
import StormDrive.Text.Separators
import StormDrive.Places
import StormDrive.Backplanes
import StormDrive.Megaraid
import StormDrive.Text.Hexadecimal
import StormDrive.JobIds
import StormDrive.Interleave.Files
import StormDrive.FirmwareImages
import StormDrive.Interleave.Latch
import StormDrive.Interleave.Timer
import StormDrive.PollSchedule
import StormDrive.ThermalLevel
import StormDrive.SampledRuns
import StormDrive.Interleave.Mirror
import StormDrive.Watch
import StormDrive.SesReads
import StormDrive.SesAssemble
import StormDrive.LossyText
import StormDrive.Smbios
import StormDrive.Interleave.Changes
import StormDrive.ShelfConditions
import StormDrive.ShelfTellings
import StormDrive.LedRequests
import StormDrive.FailedBays
import StormDrive.FaultLeds
import StormDrive.AssetItems
import StormDrive.AssetRecord
import StormDrive.Text.Decimal
import StormDrive.Calendar.Civil
import StormDrive.Calendar.Iso
import StormDrive.KeptMonths
import StormDrive.Identity
import StormDrive.Bytes.Layout
import StormDrive.Bytes.Cut
import StormDrive.Scsi
import StormDrive.Interleave.Trace
import StormDrive.FormatStart
import StormDrive.Bytes.Checked
import StormDrive.Gpt
import StormDrive.GptRoundTrip
import StormDrive.Partition
import StormDrive.Samples
import StormDrive.DriveTest
import StormDrive.FormatEnd
import StormDrive.Microcode
import StormDrive.MicrocodeWhole
import StormDrive.Bytes.Bounds
import StormDrive.Bytes.Records
import StormDrive.Sense
import StormDrive.LogPages
import StormDrive.Bytes.Scan
import StormDrive.TableWalk
import StormDrive.Ses
import StormDrive.SesControl
import StormDrive.Monitor
import StormDrive.Interleave.Expiring
import StormDrive.KubeAuth
import StormDrive.Retry
import StormDrive.Backoff
import StormDrive.StormBlock
import StormDrive.Interleave.Unordered
import StormDrive.Resolve
import StormDrive.OrderedMap
import StormDrive.ShelfReport
import StormDrive.Enclosure
import StormDrive.Bays
import StormDrive.Text.Routing
import StormDrive.JobRequest
import StormDrive.ApiGuard
import StormDrive.Hysteresis
import StormDrive.Interleave.Debounce
import StormDrive.EngineFindings
import StormDrive.RetireRequests
import StormDrive.Thermal
import StormDrive.ThermalAlerts
import StormDrive.ThermalLimits
import StormDrive.DriveUsage
import StormDrive.Attribution
import StormDrive.Interleave.Ledger
import StormDrive.ThermalPass
import StormDrive.ThermalHistory
import StormDrive.Interleave.Stretches
import StormDrive.ThermalStretch
import StormDrive.ThermalCooling
import StormDrive.Interleave.LedgerLog
import StormDrive.WearTrend
import StormDrive.DriveObjects
import StormDrive.DriveObjectPasses
import StormDrive.Metrics
import StormDrive.MetricsPage
import StormDrive.Interleave.Replaced
import StormDrive.StateFiles
import StormDrive.Interleave.Tally
import StormDrive.HistoryLog
import StormDrive.AtaErase
