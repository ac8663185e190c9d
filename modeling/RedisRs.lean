import RedisRs.AclRules
import RedisRs.Addressing
import RedisRs.AnsweredOnce
import RedisRs.AsyncMatching
import RedisRs.Attributes
import RedisRs.CacheHits
import RedisRs.CacheTransparency
import RedisRs.ClusterBorrow
import RedisRs.ClusterRefresh
import RedisRs.CountedCommands
import RedisRs.CredentialStreams
import RedisRs.IntegerReplies
import RedisRs.JwtOid
import RedisRs.ManagerSubscriptions
import RedisRs.MapArgs
import RedisRs.NegativeLengths
import RedisRs.OneSucceeded
import RedisRs.PipelineArrays
import RedisRs.PipelineRedirects
import RedisRs.PipelineResults
import RedisRs.PipelineRouting
import RedisRs.PipelineTracking
import RedisRs.PollFlush
import RedisRs.PubSubDrain
import RedisRs.ReconnectLoop
import RedisRs.RetryWaits
import RedisRs.RoundRobin
import RedisRs.ScanIteration
import RedisRs.Script
import RedisRs.SentinelCache
import RedisRs.SentinelSearch
import RedisRs.SetupReplies
import RedisRs.SharedCache
import RedisRs.SlotParsing
import RedisRs.StaleHits
import RedisRs.StreamReplies
