import QcDatabase.Lib.SortedMap
import QcDatabase.Lib.SortedMapSums
import QcDatabase.Lib.OrderedSearch
import QcDatabase.Lib.LittleEndian
import QcDatabase.Lib.FileStream
import QcDatabase.Lib.LeveledMap
import QcDatabase.Lib.LeveledScan
import QcDatabase.Lib.UnorderedMap
import QcDatabase.Lib.CycleSearch
import QcDatabase.Lib.Acyclic
import QcDatabase.Lib.StepRuns
import QcDatabase.Lib.SharedMutex
import QcDatabase.Lib.CheckedRegister
import QcDatabase.Lib.ShiftRegister
import QcDatabase.Lib.QuorumSets
import QcDatabase.Lib.ComponentSearch
import QcDatabase.Crc32cBursts
import QcDatabase.Crc32cChunks
import QcDatabase.Storage.CorruptedLog
import QcDatabase.Storage.Wal
import QcDatabase.Storage.MemTable
import QcDatabase.Storage.MemoryAccounting
import QcDatabase.Storage.SSTable
import QcDatabase.Storage.SSTableFormat
import QcDatabase.Storage.StorageDiscipline
import QcDatabase.Storage.StorageTraces
import QcDatabase.Storage.LsmTree
import QcDatabase.Storage.Levels
import QcDatabase.Storage.Flush
import QcDatabase.Storage.Compaction
import QcDatabase.Storage.WalSessions
import QcDatabase.Storage.TornLog
import QcDatabase.Storage.PublicCalls
import QcDatabase.Storage.IntactTables
import QcDatabase.Storage.ScanResults
import QcDatabase.Storage.ScanBounds
import QcDatabase.Storage.EngineLog
import QcDatabase.Storage.Backup
import QcDatabase.Storage.LogLimits
import QcDatabase.Storage.FlushedMemory
import QcDatabase.Storage.VersionedUpdates
import QcDatabase.Storage.Recovery
import QcDatabase.Storage.Isolation
import QcDatabase.Transaction.LockManager
import QcDatabase.Transaction.MutualExclusion
import QcDatabase.Transaction.LockTables
import QcDatabase.Transaction.WaitGraph
import QcDatabase.Transaction.DeadlockDetection
import QcDatabase.Transaction.DeadlockCompleteness
import QcDatabase.Transaction.TransactionManager
import QcDatabase.Transaction.TwoPhaseCommit
import QcDatabase.Transaction.Serializability
import QcDatabase.Transaction.SystemInvariant
import QcDatabase.Transaction.LockLifetime
import QcDatabase.Transaction.ReportedOutcome
import QcDatabase.Transaction.VotedTransactions
import QcDatabase.Transaction.MutexTraces
import QcDatabase.Transaction.LockDiscipline
import QcDatabase.Storage.SequenceNumbers
import QcDatabase.Storage.TableNames
import QcDatabase.Time.HybridClock
import QcDatabase.Time.Causality
import QcDatabase.Time.ClockBounds
import QcDatabase.Time.TimeService
import QcDatabase.Time.TimeServiceTraces
import QcDatabase.Cluster.SplitBrainDetector
import QcDatabase.Cluster.Quorum
import QcDatabase.Cluster.SplitBrainUtils
import QcDatabase.Cluster.NetworkPartitions
import QcDatabase.Cluster.QuorumDecisions
import QcDatabase.Cluster.SplitBrainSystem
import QcDatabase.Cluster.PartitionRecords
import QcDatabase.Cluster.RepeatedDetection
import QcDatabase.Cluster.HeartbeatOrder
import QcDatabase.Cluster.RecoveryReports
import QcDatabase.Cluster.NodeIsolation
import QcDatabase.Hotspot.HotspotManager
import QcDatabase.Hotspot.HotspotTraces
import QcDatabase.ServiceDiscipline
import QcDatabase.Lib.CyclePaths
import QcDatabase.Transaction.ExpiredTransactions
import QcDatabase.Transaction.DetectedCycles
import QcDatabase.Storage.FailedRestore
import QcDatabase.Storage.TornTables
import QcDatabase.Lib.MachineIntegers
import QcDatabase.Time.TimestampOrdering
import QcDatabase.Time.OffsetSamples
import QcDatabase.Lib.SortedMajority
import QcDatabase.Time.MedianOffset
import QcDatabase.Time.EnoughSamples
import QcDatabase.Time.NtpTime
import QcDatabase.Lib.Calendar
import QcDatabase.Lib.TextFields
import QcDatabase.Time.ClockStrings
import QcDatabase.Lib.Journal
import QcDatabase.Storage.LogJournal
import QcDatabase.Storage.Provenance
import QcDatabase.Transaction.ManagerSteps
import QcDatabase.Transaction.CommitOrder
import QcDatabase.Transaction.Notifications
import QcDatabase.Transaction.TransactionContext
import QcDatabase.Transaction.LockQueries
import QcDatabase.Transaction.CurrentEdges
import QcDatabase.Lib.Checkpoints
import QcDatabase.Storage.Crashes
import QcDatabase.Cluster.DetectorEvents
import QcDatabase.Cluster.QuorumEvents
import QcDatabase.Cluster.NodeLife
import QcDatabase.Cluster.PartitionSides
import QcDatabase.Time.TimestampStrings
import QcDatabase.Lib.ConditionVariable
import QcDatabase.Time.TimestampWaits
import QcDatabase.Storage.Statistics
import QcDatabase.Time.NtpRoundTrips
