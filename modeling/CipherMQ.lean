import CipherMQ.AcknowledgedMessages
import CipherMQ.CallOwners
import CipherMQ.CallRefinement
import CipherMQ.ClientRequest
import CipherMQ.DuplicateSuppression
import CipherMQ.IndexAgreement
import CipherMQ.PublishEffect
import CipherMQ.QueueIsolation
import CipherMQ.RateLimiter
import CipherMQ.SubscribeHandOff
import CipherMQ.RequestFraming
import CipherMQ.RoleSeparation
import CipherMQ.Server
import CipherMQ.ServerEffects
import CipherMQ.ConnectionLimits
import CipherMQ.ReceiverIsolation
import CipherMQ.ReceiverAcks
import CipherMQ.RoutingIsolation
import CipherMQ.Base64
import CipherMQ.Table
import CipherMQ.StorageWorker
import CipherMQ.PersistentBroker
import CipherMQ.RestartAccounting
import CipherMQ.PublishAtomicity
import CipherMQ.PublicKeyStore
import CipherMQ.HybridEncryption
import CipherMQ.MessageLines
import CipherMQ.SenderPipeline
import CipherMQ.InflightWindow
import CipherMQ.PipelineProgress
import CipherMQ.PipelineDeadlock
import CipherMQ.StorageLoop
import CipherMQ.TimestampBuffers
import CipherMQ.UpdateLoss
import CipherMQ.WriteOnce
import CipherMQ.ReceiverReconnect
import CipherMQ.BrokerTrace
import CipherMQ.SubscriberFeed
import CipherMQ.ConsumerFeeds
import CipherMQ.QueueLogs
import CipherMQ.ConsumerOrder
import CipherMQ.SenderRetry
import CipherMQ.SenderAccounting
import CipherMQ.FailureReport
import CipherMQ.HandlerBooks
import CipherMQ.ClientCount
import CipherMQ.HeartbeatMonitor
import CipherMQ.DeliverySteps
import CipherMQ.DeliveryAttempts
import CipherMQ.AwaitedCalls
import CipherMQ.ServerTally
import CipherMQ.ServerMetrics
import CipherMQ.ConsumerCleanup
import CipherMQ.MessageExpiry
import CipherMQ.TopologyIntegrity
import CipherMQ.NameAddressing
import CipherMQ.LastEntries
import CipherMQ.ReceiverPanics
import CipherMQ.RequestService
import CipherMQ.TruthfulReplies
import CipherMQ.ReceiverNamespaces
import CipherMQ.AcknowledgeLaws
import CipherMQ.TokenBucket
import CipherMQ.RequestLimits
import CipherMQ.ConnectionTables
import CipherMQ.BatchLoop
import CipherMQ.MessageIdentity
import CipherMQ.Substitution
import CipherMQ.MessageTemplates
import CipherMQ.ServerConfiguration
import CipherMQ.Json
import CipherMQ.AdminStatus
import CipherMQ.EndToEnd
import CipherMQ.ClientSetUp
import CipherMQ.SenderStart
import CipherMQ.AcceptLoop
