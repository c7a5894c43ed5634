import KnowledgeCompanion.GuardedRun
import KnowledgeCompanion.KeyedTable
import KnowledgeCompanion.GlobPattern
import KnowledgeCompanion.Text
import KnowledgeCompanion.AppErrors
import KnowledgeCompanion.TokenStore
import KnowledgeCompanion.AuthService
import KnowledgeCompanion.RefreshInterleaving
import KnowledgeCompanion.RateLimit
import KnowledgeCompanion.AuthRoutes
import KnowledgeCompanion.TaskRecords
import KnowledgeCompanion.TaskDispatcher
import KnowledgeCompanion.TaskService
import KnowledgeCompanion.FileService
import KnowledgeCompanion.GatewayRuns
import KnowledgeCompanion.TaskInterleaving
import KnowledgeCompanion.TaskLifecycle
import KnowledgeCompanion.TaskDispatch
import KnowledgeCompanion.GatewayReporter
import KnowledgeCompanion.WorkerReports
import KnowledgeCompanion.CeleryHooks
import KnowledgeCompanion.TaskBroadcast
import KnowledgeCompanion.BudgetedPrefix
import KnowledgeCompanion.MessageRecords
import KnowledgeCompanion.ContextWindow
import KnowledgeCompanion.GoText
import KnowledgeCompanion.BoundedChannel
import KnowledgeCompanion.AiClient
import KnowledgeCompanion.JsonText
import KnowledgeCompanion.SpanScan
import KnowledgeCompanion.PythonText
import KnowledgeCompanion.QaStream
import KnowledgeCompanion.Conversations
import KnowledgeCompanion.QaService
import KnowledgeCompanion.ApiExceptions
import KnowledgeCompanion.BaseChunker
import KnowledgeCompanion.Chunking
import KnowledgeCompanion.Embeddings
import KnowledgeCompanion.KeyedUpsert
import KnowledgeCompanion.VectorIndexing
import KnowledgeCompanion.VectorReindex
import KnowledgeCompanion.RetrievalModels
import KnowledgeCompanion.VectorStore
import KnowledgeCompanion.ReadThroughCache
import KnowledgeCompanion.Bm25
import KnowledgeCompanion.RankFusion
import KnowledgeCompanion.HybridRetrieval
import KnowledgeCompanion.RetrievalCache
import KnowledgeCompanion.RetrievalDegradation
import KnowledgeCompanion.Citations
import KnowledgeCompanion.ChatNotifier
import KnowledgeCompanion.CitationSync
import KnowledgeCompanion.TaskStream
import KnowledgeCompanion.ChatSseClient
import KnowledgeCompanion.ChatDelivery
import KnowledgeCompanion.DartText
import KnowledgeCompanion.NotifierRuns
import KnowledgeCompanion.AgentNodes
import KnowledgeCompanion.AgentProtocol
import KnowledgeCompanion.AgentAnswers
import KnowledgeCompanion.AgentConversations
import KnowledgeCompanion.ResourceStatus
import KnowledgeCompanion.ObjectLocation
import KnowledgeCompanion.SegmentMerger
import KnowledgeCompanion.SrtGenerator
import KnowledgeCompanion.SubtitleParser
import KnowledgeCompanion.SubtitleRoundTrip
import KnowledgeCompanion.FilterExpression
import KnowledgeCompanion.MilvusFilters
import KnowledgeCompanion.ChromaFilters
import KnowledgeCompanion.StoreSelection
import KnowledgeCompanion.Stretches
import KnowledgeCompanion.FormValidators
import KnowledgeCompanion.Bm25Search
import KnowledgeCompanion.StridedWindows
import KnowledgeCompanion.SummaryWindows
import KnowledgeCompanion.PathConfinement
import KnowledgeCompanion.IndexCache
import KnowledgeCompanion.Ranking
import KnowledgeCompanion.StoreSearch
import KnowledgeCompanion.Retrieval
import KnowledgeCompanion.BackendRankings
import KnowledgeCompanion.EngineAgreement
import KnowledgeCompanion.HybridContract
import KnowledgeCompanion.ChromaRoundTrip
import KnowledgeCompanion.CitedAnswers
import KnowledgeCompanion.SseFrames
import KnowledgeCompanion.SseClients
import KnowledgeCompanion.SseRelay
import KnowledgeCompanion.ResourceList
import KnowledgeCompanion.RetryInterleaving
import KnowledgeCompanion.TaskPolling
import KnowledgeCompanion.ConversationList
import KnowledgeCompanion.ChunkSlices
import KnowledgeCompanion.TokenLimits
import KnowledgeCompanion.TokenWindows
import KnowledgeCompanion.MergedSegments
import KnowledgeCompanion.FusedRanking
import KnowledgeCompanion.BatchedEmbeddings
import KnowledgeCompanion.SegmentTimes
import KnowledgeCompanion.AsrTask
import KnowledgeCompanion.SlidingWindow
import KnowledgeCompanion.WebSearchLimiter
import KnowledgeCompanion.RateLimitWindows
import KnowledgeCompanion.RegistrationOutcomes
import KnowledgeCompanion.ReindexFailure
import KnowledgeCompanion.RetrievalResults
import KnowledgeCompanion.UploadRollback
import KnowledgeCompanion.RagScope
import KnowledgeCompanion.CorpusLoad
import KnowledgeCompanion.OwnedRows
import KnowledgeCompanion.ApiClient
import KnowledgeCompanion.ExtractionSave
import KnowledgeCompanion.QaAnswers
import KnowledgeCompanion.LlmObservations
import KnowledgeCompanion.ObserverRedaction
import KnowledgeCompanion.TextRules
import KnowledgeCompanion.NumberedAnswers
import KnowledgeCompanion.ObjectHeap
import KnowledgeCompanion.TextCleaning
import KnowledgeCompanion.MapReduce
import KnowledgeCompanion.SectionSplitter
import KnowledgeCompanion.PdfProgress
import KnowledgeCompanion.ContentSearch
import KnowledgeCompanion.ContentView
import KnowledgeCompanion.HighlightText
import KnowledgeCompanion.KeyedRuns
import KnowledgeCompanion.SrtListView
import KnowledgeCompanion.TimecodeDisplay
import KnowledgeCompanion.MemoryService
import KnowledgeCompanion.MemoryRecall
import KnowledgeCompanion.ResultService
import KnowledgeCompanion.SummaryService
import KnowledgeCompanion.RuleExtraction
import KnowledgeCompanion.TagExtraction
import KnowledgeCompanion.ResourceService
import KnowledgeCompanion.Lockstep
import KnowledgeCompanion.ResourceBrowsing
import KnowledgeCompanion.PrivateViews
import KnowledgeCompanion.ConversationService
import KnowledgeCompanion.AutoDispatch
