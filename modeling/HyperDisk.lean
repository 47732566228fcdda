import HyperDisk.Foundations.LittleEndian
import HyperDisk.Foundations.FileImages
import HyperDisk.Foundations.StepRuns
import HyperDisk.Foundations.WordCounters
import HyperDisk.Foundations.DecimalText
import HyperDisk.Foundations.TaggedQueues
import HyperDisk.Foundations.WeightedMaps
import HyperDisk.Foundations.PackedFields
import HyperDisk.Foundations.RecentSlots
import HyperDisk.Foundations.BigEndian
import HyperDisk.Foundations.LatestEntries
import HyperDisk.Foundations.NodeLists
import HyperDisk.Foundations.WeightedLists
import HyperDisk.Foundations.KeyedFolds
import HyperDisk.Foundations.TrimmedLogs
import HyperDisk.Foundations.Rotation
import HyperDisk.Foundations.PackedRecords
import HyperDisk.Foundations.ReflectedCrc
import HyperDisk.Foundations.StepBudgets
import HyperDisk.Foundations.SharedLocks
import HyperDisk.Foundations.ThreadStates
import HyperDisk.Foundations.HexText
import HyperDisk.Foundations.PrintBuffers
import HyperDisk.OverlayMgr.WalRecords
import HyperDisk.OverlayMgr.RecordRoundTrip
import HyperDisk.OverlayMgr.WalSegments
import HyperDisk.OverlayMgr.RecordBounds
import HyperDisk.OverlayMgr.RecordIntegrity
import HyperDisk.OverlayMgr.SegmentFrames
import HyperDisk.OverlayMgr.SegmentRecovery
import HyperDisk.OverlayMgr.WalManager
import HyperDisk.OverlayMgr.CheckpointText
import HyperDisk.OverlayMgr.CrashReplay
import HyperDisk.OverlayMgr.ManagerSteps
import HyperDisk.OverlayMgr.SequenceIds
import HyperDisk.OverlayMgr.SessionRefinement
import HyperDisk.OverlayMgr.RestartDurability
import HyperDisk.OverlayMgr.OverlayReads
import HyperDisk.SmartCache.TinyLfu
import HyperDisk.SmartCache.WTinyLfu
import HyperDisk.SmartCache.QueueInvariant
import HyperDisk.SmartCache.CurrentData
import HyperDisk.SmartCache.SketchBounds
import HyperDisk.SmartCache.SketchSoundness
import HyperDisk.SmartCache.CapacityBounds
import HyperDisk.SmartCache.SegmentBounds
import HyperDisk.SmartCache.L1RamCache
import HyperDisk.Common.Crc32c
import HyperDisk.Common.FrameCodec
import HyperDisk.Common.FrameRoundTrip
import HyperDisk.Common.FrameBounds
import HyperDisk.ImageServer.ImageService
import HyperDisk.ImageServer.BlockAccess
import HyperDisk.ReplayRecorder.RingBuffer
import HyperDisk.ReplayRecorder.RecentEntries
import HyperDisk.ReplayRecorder.ReplayFiles
import HyperDisk.ReplayRecorder.ReplayDamage
import HyperDisk.ReplayRecorder.HeaderLayout
import HyperDisk.ReplayRecorder.HotBlocks
import HyperDisk.DiskRuntime.NetworkStateMachine
import HyperDisk.DiskRuntime.MachineInvariant
import HyperDisk.DiskRuntime.Reconnection
import HyperDisk.DiskRuntime.RetryBackoff
import HyperDisk.DiskRuntime.FailoverSchedule
import HyperDisk.Driver.NetFrame
import HyperDisk.Driver.FrameProtocol
import HyperDisk.Wireshark.Dissector
import HyperDisk.MetadataCenter.BlockIndex
import HyperDisk.MetadataCenter.RegisteredBlocks
import HyperDisk.CacheEngine.L3SsdCache
import HyperDisk.CacheEngine.CacheInvariant
import HyperDisk.CacheEngine.RecencyOrder
import HyperDisk.CacheEngine.CurrentBlocks
import HyperDisk.Blackbox.BlackBoxRecorder
import HyperDisk.Blackbox.BlackBoxFiles
import HyperDisk.Common.BootTrace
import HyperDisk.Common.TraceThreads
import HyperDisk.BootAgent.BootMeta
import HyperDisk.BootAgent.VerifiedMeta
import HyperDisk.BootAgent.DhcpOptions
import HyperDisk.BootAgent.HttpBody
import HyperDisk.BootAgent.BootIdentity
import HyperDisk.BootAgent.BootUrls
import HyperDisk.BootAgent.BootConfig
import HyperDisk.BootAgent.DhcpDiscover
import HyperDisk.BootAgent.Telemetry
import HyperDisk.BootAgent.BootSequence
import HyperDisk.BootAgent.BootRuns
import HyperDisk.Common.Checksums
import HyperDisk.Foundations.PastRuns
import HyperDisk.Foundations.Handles
import HyperDisk.Foundations.Markers
import HyperDisk.Foundations.Tallies
import HyperDisk.Driver.Recovery7b
import HyperDisk.Driver.RecoveryHistory
import HyperDisk.Driver.RecoveryTermination
import HyperDisk.Driver.SerialRing
import HyperDisk.Driver.IrpTracker
import HyperDisk.Driver.OverlayDriver
import HyperDisk.Driver.NetConnections
import HyperDisk.Driver.BlkDispatch
import HyperDisk.Driver.TransferRanges
import HyperDisk.Driver.CcMmSync
import HyperDisk.Driver.PoolQuota
import HyperDisk.Driver.FrameSends
import HyperDisk.Driver.DeviceInterfaces
import HyperDisk.Driver.BusChildren
import HyperDisk.Driver.BusRuns
import HyperDisk.Driver.DiskLifecycle
import HyperDisk.Driver.DeviceControl
import HyperDisk.ApiGateway.BootReports
import HyperDisk.ApiGateway.BootTables
import HyperDisk.BootDiag.DiagChecks
import HyperDisk.BootDiag.GptCheck
import HyperDisk.BootDiag.GptBounds
import HyperDisk.BootDiag.FileHeaders
import HyperDisk.BootDiag.NtfsCheck
import HyperDisk.BootDiag.BootGate
import HyperDisk.BootDiag.MetaFlags
import HyperDisk.BootDiag.BlockProbe
import HyperDisk.BootDiag.HiveCheck
