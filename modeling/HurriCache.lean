import HurriCache.DecoderAgreement
import HurriCache.OrderedEncoders
import HurriCache.StreamIntegrity
import HurriCache.ChunkedInsertion
import HurriCache.PivotInsertion
import HurriCache.CreationPlans
import HurriCache.KeyRouting
import HurriCache.RedirectTermination
import HurriCache.ShardDivisor
import HurriCache.WorkerAttempts
import HurriCache.RemainderRouting
import HurriCache.RefreshSafety
import HurriCache.TopologySnapshot
import HurriCache.ShutdownFinal
import HurriCache.FailoverDelivery
import HurriCache.ClientAccounting
import HurriCache.RequestBound
import HurriCache.EstimateCoverage
import HurriCache.ArgumentCapture
import HurriCache.AttemptChain
import HurriCache.PortableHash
import HurriCache.KeyDecoderAgreement
import HurriCache.PayloadFragments
import HurriCache.AtomicRequests
import HurriCache.Deadlines
import HurriCache.MapRejection
import HurriCache.NullSafety
import HurriCache.MasterOnly
import HurriCache.IncrementalHash
import HurriCache.OrderedKeys
import HurriCache.GreedySplitting
import HurriCache.TopologyReplacement
import HurriCache.TopologyAssembly
import HurriCache.CoordinatorFailover
import HurriCache.TrailerlessErrors
import HurriCache.NodeShutdown
import HurriCache.NodeFutures
import HurriCache.ClusterTransparency
import HurriCache.WireServer
import HurriCache.ReadyWakeups
import HurriCache.StreamMemory
import HurriCache.TopologyCalls
import HurriCache.CoordinatorChannels
import HurriCache.KeylessSpread
import HurriCache.ConcurrentAdditions
import HurriCache.RefreshExclusion
