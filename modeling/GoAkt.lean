import GoAkt.Allocation
import GoAkt.DeliveryOrder
import GoAkt.Behaviors
import GoAkt.ClientPool
import GoAkt.Coalescer
import GoAkt.ConsistentHash
import GoAkt.Coordination
import GoAkt.CrdtCodec
import GoAkt.DeathWatch
import GoAkt.DispatchProtocol
import GoAkt.FairMailboxDelivery
import GoAkt.LastWriter
import GoAkt.MetadataRoundTrip
import GoAkt.NetClientMatching
import GoAkt.ORSetAddWins
import GoAkt.ORSetDelta
import GoAkt.Passivation
import GoAkt.ReadyQueue
import GoAkt.RecordCache
import GoAkt.ReentrancyRuns
import GoAkt.Relocation
import GoAkt.RemoteAsk
import GoAkt.RemoteWatches
import GoAkt.Router
import GoAkt.SegmentedDelivery
import GoAkt.SingletonSpawn
import GoAkt.SingletonStop
import GoAkt.Stash
import GoAkt.StashedAsks
import GoAkt.Stream.Balance
import GoAkt.Stream.Batch
import GoAkt.Stream.Junctions
import GoAkt.Stream.MergeLatest
import GoAkt.Stream.Range
import GoAkt.SupervisorCodec
import GoAkt.TCPServer
import GoAkt.TopicActor
import GoAkt.WatcherRegistry
