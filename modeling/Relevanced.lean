import Relevanced.Foundation.Program
import Relevanced.Foundation.ByteString
import Relevanced.Foundation.OrderedMap
import Relevanced.Models
import Relevanced.Persistence.RockHandle
import Relevanced.Persistence.Keys
import Relevanced.Persistence.SyncPersistence
import Relevanced.Persistence.SyncRuns
import Relevanced.Persistence.Refinement
import Relevanced.Persistence.Links
import Relevanced.Persistence.KeyIsolation
import Relevanced.CentroidUpdate.CentroidUpdateWorker
import Relevanced.CentroidUpdate.Joins
import Relevanced.Util.Debouncer
import Relevanced.Server.RelevanceServer
import Relevanced.Server.Transitions
import Relevanced.Foundation.Entries
import Relevanced.CentroidUpdate.Exclusion
import Relevanced.Server.Runs
import Relevanced.Server.Freshness
import Relevanced.Server.UpdateScheduling
import Relevanced.CentroidUpdate.Callbacks
import Relevanced.Server.JoinCentroid
import Relevanced.Persistence.InMemoryRockHandle
import Relevanced.SimilarityScoreWorker.KnownCentroids
import Relevanced.SimilarityScoreWorker.ReloadCentroid
import Relevanced.Foundation.Tally
import Relevanced.Util.MultiVersionPtr
import Relevanced.Foundation.Pool
import Relevanced.Persistence.Persistence
import Relevanced.Persistence.Creation
import Relevanced.Persistence.ConcurrentLinks
import Relevanced.CentroidUpdate.CentroidUpdater
import Relevanced.Foundation.Clients
import Relevanced.Persistence.Listings
import Relevanced.CentroidUpdate.UpdaterRuns
import Relevanced.CentroidUpdate.Undisturbed
import Relevanced.CentroidUpdate.LazyCleanup
import Relevanced.CentroidUpdate.Recomputation
import Relevanced.CentroidUpdate.Forgetting
import Relevanced.CentroidUpdate.DeletedCentroid
import Relevanced.Foundation.Stretches
import Relevanced.Foundation.Utf8
import Relevanced.Libunicode.CodePointSupport
import Relevanced.Tokenizer.DestructiveTokenIterator
import Relevanced.Tokenizer.TokenRanges
import Relevanced.TextUtil.ScoredWord
import Relevanced.TextUtil.WordAccumulator
import Relevanced.TextUtil.TermFrequencies
import Relevanced.CentroidUpdate.Accumulation
import Relevanced.Stopwords.StopwordFilter
import Relevanced.DocumentProcessing.DocumentProcessor
import Relevanced.Tokenizer.ReadText
import Relevanced.DocumentProcessing.DocumentProcessingWorker
import Relevanced.Foundation.Cache
import Relevanced.Stemmer.ThreadSafeStemmerManager
import Relevanced.Foundation.WireFormat
import Relevanced.Serialization.BinarySerialization
import Relevanced.Serialization.JsonSerialization
import Relevanced.Foundation.KeyedVectors
import Relevanced.DocumentProcessing.ProcessedVectors
import Relevanced.Models.WordVector
import Relevanced.DocumentProcessing.Similarity
import Relevanced.Models.CosineSimilarity
import Relevanced.Foundation.Pages
import Relevanced.Persistence.ListedIds
import Relevanced.Persistence.PrefixScans
import Relevanced.Persistence.Pagination
import Relevanced.Persistence.WriteFailures
import Relevanced.Foundation.Associations
import Relevanced.Persistence.PublicCalls
import Relevanced.Persistence.UnusedReports
import Relevanced.Persistence.GarbageCollection
import Relevanced.Persistence.Rejections
import Relevanced.DocumentProcessing.Magnitudes
import Relevanced.SimilarityScoreWorker.Denominators
import Relevanced.CentroidUpdate.InProgress
import Relevanced.Util.DebouncerThreads
import Relevanced.CentroidUpdate.Shutdown
import Relevanced.CentroidUpdate.EchoUpdated
import Relevanced.Util.Throttling
import Relevanced.Util.Independence
import Relevanced.TextUtil.ViewKeys
import Relevanced.Server.MultiDelete
import Relevanced.Server.MemberRequests
import Relevanced.Foundation.Company
import Relevanced.CentroidUpdate.Bounds
import Relevanced.CentroidUpdate.Turning
import Relevanced.CentroidUpdate.Termination
import Relevanced.Foundation.Hexadecimal
import Relevanced.Util.Sha1
import Relevanced.Foundation.Linearization
import Relevanced.Util.MapHistory
import Relevanced.Util.ConcurrentMap
import Relevanced.Util.AtomicMap
import Relevanced.Util.MapLinearization
import Relevanced.Util.MapInvariant
import Relevanced.Util.MapRefinement
import Relevanced.Util.MapRuns
import Relevanced.Persistence.Archive
import Relevanced.Persistence.Contents
import Relevanced.Serialization.CentroidSerialization
import Relevanced.Foundation.Windows
import Relevanced.CentroidUpdate.Weights
import Relevanced.CentroidUpdate.MemberScores
import Relevanced.SimilarityScoreWorker.Answers
import Relevanced.Foundation.Layers
import Relevanced.Persistence.CentroidMetadataDb
import Relevanced.Server.Handlers
import Relevanced.Server.Replies
import Relevanced.Server.BulkCreation
import Relevanced.Foundation.Snapshots
import Relevanced.SimilarityScoreWorker.ScorePool
import Relevanced.SimilarityScoreWorker.MultiScores
import Relevanced.SimilarityScoreWorker.Initialize
