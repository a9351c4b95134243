import PulsarLite.Broker.AckAccounting
import PulsarLite.Broker.ChannelBudget
import PulsarLite.Broker.CompletionChannel
import PulsarLite.Broker.ConnectionCleanup
import PulsarLite.Broker.ConnectionIsolation
import PulsarLite.Broker.ConnectionLimiter
import PulsarLite.Broker.DispatchProgress
import PulsarLite.Broker.Fanout
import PulsarLite.Broker.KeyOrder
import PulsarLite.Broker.KeyShares
import PulsarLite.Broker.MergeTrigger
import PulsarLite.Broker.NoLostMessage
import PulsarLite.Broker.PermitAggregate
import PulsarLite.Broker.PermitRefund
import PulsarLite.Broker.PublishAccounting
import PulsarLite.Broker.PublishRate
import PulsarLite.Broker.RedeliveryAccounting
import PulsarLite.Broker.RedeliveryBlocking
import PulsarLite.Broker.Reservation
import PulsarLite.Broker.Resumption
import PulsarLite.Broker.SeekRace
import PulsarLite.Proto.Codec
import PulsarLite.Storage.AckExactness
import PulsarLite.Storage.AckMonotonic
import PulsarLite.Storage.AppendInvariant
import PulsarLite.Storage.BornUnacked
import PulsarLite.Storage.CursorPersistence
import PulsarLite.Storage.EntryLogReads
import PulsarLite.Storage.Isolation
import PulsarLite.Storage.LedgerIds
import PulsarLite.Storage.LinearizableReads
import PulsarLite.Storage.MemoryAcks
import PulsarLite.Storage.PositionWalk
import PulsarLite.Storage.PublishTimeSeek
import PulsarLite.Storage.QueueRefinement
import PulsarLite.Storage.RangeSetRuns
