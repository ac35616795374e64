import GalayTracing.BatchSpanProcessor.Ledger
import GalayTracing.BatchSpanProcessor.Conservation
import GalayTracing.BatchSpanProcessor.Dropping
import GalayTracing.BatchSpanProcessor.OnEndSchedule
import GalayTracing.BatchSpanProcessor.BatchSizeSchedule
import GalayTracing.BatchSpanProcessor.ExporterLifeCycle
import GalayTracing.BatchSpanProcessor.FlushBarrier
import GalayTracing.BatchSpanProcessor.ShutdownDrain
import GalayTracing.BatchSpanProcessor.ShutdownFlush
import GalayTracing.BatchSpanProcessor.ShutdownWakeUp
import GalayTracing.BatchSpanProcessor.Refinement
import GalayTracing.BatchSpanProcessor.Destruction
import GalayTracing.BatchSpanProcessor.Termination
import GalayTracing.BatchSpanProcessor.Failures
import GalayTracing.BatchSpanProcessor.WakeUpBarrier
import GalayTracing.Foundation.ByteString
import GalayTracing.Foundation.Hex
import GalayTracing.Common.Identifiers
import GalayTracing.Context.TraceContext
import GalayTracing.Context.Traceparent
import GalayTracing.Context.ContextStorage
import GalayTracing.Foundation.Scopes
import GalayTracing.Kernel.Sampler
import GalayTracing.Kernel.Span
import GalayTracing.Kernel.SpanGuard
import GalayTracing.Kernel.Continuation
import GalayTracing.Kernel.NestedScopes
import GalayTracing.Kernel.GuardReplacement
import GalayTracing.Kernel.GuardEnd
import GalayTracing.Foundation.Json.Grammar
import GalayTracing.Foundation.Json.Parser
import GalayTracing.Kernel.TraceChain
import GalayTracing.Kernel.TraceForest
import GalayTracing.Foundation.Json.Scanner
import GalayTracing.Export.OtlpJson
import GalayTracing.Foundation.Json.Reading
import GalayTracing.Export.OtlpDocument
import GalayTracing.Export.OtlpWellFormed
import GalayTracing.Export.OtlpLossless
import GalayTracing.Export.FileSpanExporter
import GalayTracing.Export.SpanExporter
import GalayTracing.Export.SharedFile
import GalayTracing.Export.FilePipeline
import GalayTracing.Export.OtlpPipeline
import GalayTracing.Export.GalayHttpTransport
import GalayTracing.Export.WholeTraces
import GalayTracing.Export.WireHeaders
import GalayTracing.Foundation.Link
import GalayTracing.Foundation.Ancestry
import GalayTracing.Foundation.SnapshotStore
import GalayTracing.Foundation.TextLines
import GalayTracing.Log.Logger
import GalayTracing.Log.DefaultLogger
import GalayTracing.Common.HexCodec
import GalayTracing.Common.RandomIds
import GalayTracing.Common.ThreadIds
import GalayTracing.Foundation.BigEndian
import GalayTracing.Kernel.RatioSampler
import GalayTracing.BatchSpanProcessor.WorkerControl
import GalayTracing.Export.IntegerAttributes
import GalayTracing.Foundation.WordMixing
import GalayTracing.Log.LogLines
import GalayTracing.BatchSpanProcessor.LongerTimeout
import GalayTracing.BatchSpanProcessor.Timeouts
