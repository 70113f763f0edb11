import CppBenchmark.Foundation.ByteMemory
import CppBenchmark.Foundation.LinkedList
import CppBenchmark.Foundation.Transition
import CppBenchmark.Allocators.BlockStack
import CppBenchmark.Allocators.MemoryPool
import CppBenchmark.Allocators.PoolRefinement
import CppBenchmark.Allocators.PoolRuns
import CppBenchmark.Allocators.AllocationRouting
import CppBenchmark.Allocators.AllocatorContracts
import CppBenchmark.Foundation.PackedLayout
import CppBenchmark.Properties.ArrayVariableSize
import CppBenchmark.Foundation.FixedWidth
import CppBenchmark.Foundation.History
import CppBenchmark.Foundation.Positional
import CppBenchmark.Messages.Dispatcher
import CppBenchmark.Network.Encapsulation
import CppBenchmark.Network.Pcap
import CppBenchmark.Properties.DecimalDecoders
import CppBenchmark.Allocators.AllocationGuarantees
import CppBenchmark.Allocators.FailedReset
import CppBenchmark.Allocators.ResetTotality
import CppBenchmark.Benchmarks.Atoi
import CppBenchmark.Benchmarks.Hash64
import CppBenchmark.Foundation.DecimalText
import CppBenchmark.Network.AddressText
import CppBenchmark.Properties.FloatingPoint
import CppBenchmark.Properties.RecordProgress
import CppBenchmark.Allocators.AllocationStatistics
import CppBenchmark.Messages.TableIndices
import CppBenchmark.Properties.AlphanumericEnum
import CppBenchmark.Properties.BitSwap
import CppBenchmark.Properties.StringField
import CppBenchmark.Tests.StatisticsChecker
import CppBenchmark.Tests.FunctionWrapper
import CppBenchmark.Network.HexDumpText
import CppBenchmark.Network.HexDumpFrame
import CppBenchmark.Network.MACAddress
import CppBenchmark.Tests.HeapFunctionWrapper
import CppBenchmark.Network.Capture
import CppBenchmark.Network.HeaderStreams
import CppBenchmark.Messages.LayoutStream
import CppBenchmark.Tests.Alignment
import CppBenchmark.Benchmarks.HashTables
import CppBenchmark.Benchmarks.FalseSharing
import CppBenchmark.Allocators.PoolStatistics
import CppBenchmark.Messages.MessageFlow
import CppBenchmark.Benchmarks.Traversals
