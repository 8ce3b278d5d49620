import Metamalloc.Pages.LogicalPageHeader
import Metamalloc.Pages.LogicalPage
import Metamalloc.Library.Tiling
import Metamalloc.Pages.AnySizeFreeList
import Metamalloc.Pages.AnySizeTiling
import Metamalloc.Pages.AnySizeOperations
import Metamalloc.Pages.AnySizeLaws
import Metamalloc.Segments.Segment
import Metamalloc.Segments.PageList
import Metamalloc.Segments.PageTransfer
import Metamalloc.Segments.SegmentInvariant
import Metamalloc.Segments.SegmentDeallocation
import Metamalloc.Segments.SegmentAllocation
import Metamalloc.Segments.SegmentGrowth
import Metamalloc.Segments.SegmentSystem
import Metamalloc.Segments.SegmentRuns
import Metamalloc.Segments.PageRecycling
import Metamalloc.Segments.ThreadLocalChunks
import Metamalloc.Segments.RecyclableFlag
import Metamalloc.Segments.OversizedRequests
import Metamalloc.Heaps.SimpleHeapPow2
import Metamalloc.Segments.SegmentCalls
import Metamalloc.Segments.SegmentFamily
import Metamalloc.Segments.HonestArena
import Metamalloc.Segments.LookupAgreement
import Metamalloc.Segments.LeakReport
import Metamalloc.Heaps.HeapInvariant
import Metamalloc.Heaps.HeapCreation
import Metamalloc.Heaps.HeapRuns
import Metamalloc.Heaps.HeapBase
import Metamalloc.Allocator.AlignedFailover
import Metamalloc.Allocator.HeapSlots
import Metamalloc.Profiling.Profiler
import Metamalloc.Profiling.LiveBlocks
import Metamalloc.Heaps.AlignedRuns
import Metamalloc.Segments.DeallocationQueue
import Metamalloc.Arenas.Arena
import Metamalloc.Arenas.ArenaRuns
import Metamalloc.Arenas.AlignedTrimming
import Metamalloc.Pages.AnySizeCoalescing
import Metamalloc.Pages.AnySizePayloads
import Metamalloc.Pages.ChunkPartition
import Metamalloc.Heaps.HeapLookup
import Metamalloc.Allocator.AllocatorSystem
import Metamalloc.Allocator.DeallocationRouting
import Metamalloc.Segments.NextFit
import Metamalloc.Segments.GrowthBounds
import Metamalloc.Segments.GrowthOutcome
import Metamalloc.Segments.AdmittedSizes
import Metamalloc.Pages.UsableSize
import Metamalloc.Segments.DeferredRecycling
import Metamalloc.Segments.QueueCreation
import Metamalloc.Segments.BoundedOwnership
import Metamalloc.Library.SeparatedText
import Metamalloc.Profiling.PostResponse
import Metamalloc.Pages.FirstFit
import Metamalloc.Segments.GrowthArithmetic
import Metamalloc.Arenas.ArenaLock
import Metamalloc.Arenas.ArenaValidation
import Metamalloc.Heaps.AlignedBlocks
import Metamalloc.Allocator.FailedCreations
import Metamalloc.Allocator.OperatorNew
import Metamalloc.Allocator.Reallocation
import Metamalloc.Allocator.AllocationCalls
import Metamalloc.Allocator.ZeroedMemory
import Metamalloc.Allocator.AlignedReallocation
import Metamalloc.Allocator.ReallocationContents
import Metamalloc.Profiling.StatsIndex
import Metamalloc.Profiling.SizeClassAgreement
import Metamalloc.Profiling.UsageCounters
import Metamalloc.Library.TextSearch
import Metamalloc.Reactor.HttpRequests
import Metamalloc.Library.FueledLoops
import Metamalloc.Reactor.ParseLoop
import Metamalloc.Reactor.SharedCache
import Metamalloc.Reactor.WellFormedRequests
import Metamalloc.Reactor.TcpReactor
import Metamalloc.Reactor.AcceptedSockets
import Metamalloc.Reactor.ConnectorTable
import Metamalloc.Reactor.StopInterleavings
import Metamalloc.Library.DecimalScan
import Metamalloc.Platform.PageCountVariable
import Metamalloc.Platform.MemInfo
import Metamalloc.Library.MemoryManager
import Metamalloc.Allocator.ManagerRefinement
import Metamalloc.Library.CriticalSections
import Metamalloc.Platform.UserspaceSpinlock
import Metamalloc.Segments.QueueThreads
import Metamalloc.Allocator.SharedObject
import Metamalloc.Heaps.HeapProcess
import Metamalloc.Allocator.Shutdown
import Metamalloc.Library.BlankLine
import Metamalloc.Reactor.HttpResponses
import Metamalloc.Profiling.LiveProfilerServer
import Metamalloc.Library.MemoryWindows
import Metamalloc.Platform.Trampoline
import Metamalloc.Segments.IdlePages
import Metamalloc.Heaps.IdleHeapPages
import Metamalloc.Allocator.DeallocationCalls
