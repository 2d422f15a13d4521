import ChatScale.TransitionSystem
import ChatScale.ByteEncodings
import ChatScale.JsonLiterals
import ChatScale.JsonTokens
import ChatScale.JsonText
import ChatScale.JsonValue
import ChatScale.CivilTime
import ChatScale.JsonFields
import ChatScale.MessageContract
import ChatScale.MessageId
import ChatScale.MessageStoreModel
import ChatScale.MessageStoreInvariants
import ChatScale.MessageStoreIdempotency
import ChatScale.MessageStoreProgress
import ChatScale.OutboxRelayModel
import ChatScale.OutboxRelayOrder
import ChatScale.SingleRelayOrder
import ChatScale.BoundedDelivery
import ChatScale.LiveHubModel
import ChatScale.LiveHubBlocking
import ChatScale.LiveHubRegistration
import ChatScale.RoomHubModel
import ChatScale.RoomHubBlocking
import ChatScale.RedisKeyspace
import ChatScale.PresenceModel
import ChatScale.PresenceClosing
import ChatScale.PresencePing
import ChatScale.MessageStoreContents
import ChatScale.DeliveryPipeline
import ChatScale.RoomOutboxModel
import ChatScale.RoomOutboxClaims
import ChatScale.RoomOutboxHandover
import ChatScale.RoomOutboxOrder
import ChatScale.RecordFanout
import ChatScale.KafkaSessions
import ChatScale.PresenceBlocks
import ChatScale.PresenceAlignment
import ChatScale.PresenceMatching
import ChatScale.PresenceSerial
import ChatScale.PresenceIsolation
import ChatScale.RoomHubMembership
import ChatScale.MigrationRuns
import ChatScale.MigrationOrder
import ChatScale.RelayBatch
import ChatScale.RelayCycle
import ChatScale.LogConsumerModel
import ChatScale.LogConsumerOffsets
import ChatScale.LogConsumerHandoff
import ChatScale.HubShutdown
import ChatScale.IngestModel
import ChatScale.MessageStoreReplay
import ChatScale.IngestReplies
import ChatScale.JsonbText
import ChatScale.RecordSize
import ChatScale.MessageIdentity
import ChatScale.RelayDelays
import ChatScale.PresenceExpiry
import ChatScale.HubRefinement
import ChatScale.ColumnAgreement
import ChatScale.KeysetPaging
import ChatScale.RoomHistory
import ChatScale.RoomQuery
import ChatScale.IdSequence
import ChatScale.RoomSpelling
import ChatScale.CausalOrder
import ChatScale.ClientFrames
import ChatScale.DeliverySystem
import ChatScale.ServiceDelivery
import ChatScale.DeliveryOrder
import ChatScale.MemberDelivery
import ChatScale.Linearization
import ChatScale.MessageLedger
import ChatScale.RoundBound
import ChatScale.RelayFairness
import ChatScale.ClientSession
import ChatScale.LogPipeline
import ChatScale.RoomSockets
import ChatScale.RoomCluster
import ChatScale.RoomViews
import ChatScale.RoomSubscriptions
import ChatScale.RoomJoin
