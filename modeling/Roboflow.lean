import Roboflow.Library.Kv
import Roboflow.Library.Doubles
import Roboflow.Library.Machine
import Roboflow.Tikv.Schema
import Roboflow.Tikv.Lock
import Roboflow.Tikv.LockLeases
import Roboflow.Tikv.FencingTokens
import Roboflow.Tikv.LockGuards
import Roboflow.Library.Bump
import Roboflow.Episode.Allocator
import Roboflow.Episode.DenseIndices
import Roboflow.Batch.WorkUnit
import Roboflow.Batch.WorkQueue
import Roboflow.Batch.ClaimAccounting
import Roboflow.Batch.StrandedWork
import Roboflow.Batch.UnitLifecycle
import Roboflow.Batch.BatchStatus
import Roboflow.Merge.MergeState
import Roboflow.Batch.BatchCluster
import Roboflow.Batch.ClusterMoves
import Roboflow.Batch.PhaseLaw
import Roboflow.Batch.OneMerge
import Roboflow.Batch.MergeReadiness
import Roboflow.Library.BinarySearch
import Roboflow.Library.Bytes
import Roboflow.Library.Bincode
import Roboflow.Tikv.KeySpace
import Roboflow.Batch.KeyIsolation
import Roboflow.Batch.PhaseIndex
import Roboflow.Batch.MergeAttempt
import Roboflow.Batch.ScannerCoverage
import Roboflow.Merge.StagingRegistration
import Roboflow.Metadata.TaskRegistry
import Roboflow.Metadata.FeatureRegistry
import Roboflow.Catalog.SegmentCatalog
import Roboflow.Alignment.Buffer
import Roboflow.Alignment.NoLoss
import Roboflow.Alignment.EmissionOrder
import Roboflow.Library.Ring
import Roboflow.Dataset.FrameRingBuffer
import Roboflow.Dataset.PathSchemes
import Roboflow.Library.Tokens
import Roboflow.Media.FramePool
import Roboflow.Library.Painting
import Roboflow.Media.Yuv
import Roboflow.Media.YuvAgreement
import Roboflow.Library.KeyedBuffers
import Roboflow.Lerobot.Writer
import Roboflow.Lerobot.VideoBuffers
import Roboflow.Lerobot.EpisodeFiles
import Roboflow.Lerobot.VideoSegments
import Roboflow.Pipeline.Executor
import Roboflow.Pipeline.EpisodeBrackets
import Roboflow.Pipeline.FrameAlignment
import Roboflow.Pipeline.RowNumbering
import Roboflow.Library.Disk
import Roboflow.Storage.CachedStorage
import Roboflow.Storage.CacheFiles
import Roboflow.Storage.PlainStore
import Roboflow.Storage.WriteBehind
import Roboflow.Storage.HeldBytes
import Roboflow.Storage.NoLoss
import Roboflow.Storage.UploadAccounting
import Roboflow.Storage.CacheLedger
import Roboflow.Storage.LedgerRuns
import Roboflow.Batch.Reaper
import Roboflow.Episode.LocalAllocator
import Roboflow.Episode.AllocatorsAgree
import Roboflow.Batch.RunningBatch
import Roboflow.Worker.Coordinator
import Roboflow.Worker.Bookkeeping
import Roboflow.Library.UnixPath
import Roboflow.Storage.StorageUrl
import Roboflow.Batch.SourceListing
import Roboflow.Batch.SourceUnits
import Roboflow.Library.StableSort
import Roboflow.Merge.ParquetMerge
import Roboflow.Merge.FaithfulMerge
import Roboflow.Merge.RepeatableMerge
import Roboflow.Library.Interning
import Roboflow.Episode.ChunkArithmetic
import Roboflow.Tikv.Circuit
import Roboflow.Tikv.CircuitAutomaton
import Roboflow.Tikv.ClientConfig
import Roboflow.Tikv.ClientRetries
import Roboflow.Tikv.HalfOpenCalls
import Roboflow.Tikv.BackoffArithmetic
import Roboflow.Metadata.EpisodeValidation
import Roboflow.Library.Pooling
import Roboflow.Stats.Aggregation
import Roboflow.Stats.Collector
import Roboflow.Alignment.NearestFrame
import Roboflow.Alignment.RequiredCounts
import Roboflow.Metadata.Submission
import Roboflow.Metadata.Catalogue
import Roboflow.Metadata.AssembledFiles
import Roboflow.Metadata.SubmittedReaches
import Roboflow.Media.JpegHeader
import Roboflow.Media.FragmentEncoder
import Roboflow.Lerobot.ParquetColumns
import Roboflow.Library.IterationOrder
import Roboflow.Lerobot.HashOrder
import Roboflow.Lerobot.RecordedPaths
import Roboflow.Lerobot.CameraCalibration
import Roboflow.Lerobot.FrameCounts
import Roboflow.Library.Acyclic
import Roboflow.Library.Positions
import Roboflow.Executor.Pipeline
import Roboflow.Executor.PipelineBuilder
import Roboflow.Executor.StageExecutor
import Roboflow.Executor.Concurrency
import Roboflow.Executor.StageScheduler
import Roboflow.Executor.ExecutorRuns
import Roboflow.Executor.SlotPool
import Roboflow.Executor.SlotRuns
import Roboflow.Media.SegmentComposer
import Roboflow.Media.DecodeOrder
import Roboflow.Media.Frames
import Roboflow.Media.FrameSizes
import Roboflow.Media.ImageAdmission
import Roboflow.Media.AdmissionAgreement
import Roboflow.Media.ConvertPool
import Roboflow.Media.ConvertSharing
import Roboflow.Media.PoolRefusals
import Roboflow.Library.PrefixRanges
import Roboflow.Catalog.PrefixScans
import Roboflow.Library.GoodSteps
import Roboflow.Storage.S3Writer
import Roboflow.Library.Streams
import Roboflow.Storage.StreamingReader
import Roboflow.Storage.CacheFill
import Roboflow.Storage.MultipartUpload
import Roboflow.Storage.UploadRelease
import Roboflow.Storage.UrlPrinting
import Roboflow.Library.LexicalPaths
import Roboflow.Storage.Confinement
import Roboflow.Library.FileTrees
import Roboflow.Storage.LocalFiles
import Roboflow.Storage.Directories
import Roboflow.Storage.ListedPaths
import Roboflow.Library.Retries
import Roboflow.Storage.RetryingStorage
import Roboflow.Catalog.ConditionalPuts
import Roboflow.Executor.PolicyExecutor
import Roboflow.Executor.PolicyFrames
import Roboflow.Executor.PolicyEpisodes
import Roboflow.Commands.TomlLimits
import Roboflow.Library.Channels
import Roboflow.Dataset.BagSources
import Roboflow.Dataset.PrefixSource
import Roboflow.Dataset.PrefixListing
import Roboflow.Pipeline.MessageVectors
import Roboflow.Stats.Concatenation
import Roboflow.Lerobot.TaskReferences
import Roboflow.Library.Crew
import Roboflow.Media.ConcurrentEncoder
import Roboflow.Media.Workload
import Roboflow.Catalog.CatalogClients
import Roboflow.Library.Paths
import Roboflow.Batch.KeyFamilies
import Roboflow.Batch.SharedStore
import Roboflow.Worker.MainLoop
import Roboflow.Storage.StreamingUpload
import Roboflow.Batch.ReconcileLoop
import Roboflow.Media.StreamingEncoder
import Roboflow.Library.WorkerPool
import Roboflow.Media.DecodePool
import Roboflow.Library.TreeRemoval
import Roboflow.Storage.PrefixDeletion
